import Interview.Main
import Interview.Proofs.Item.Acceptance
import Interview.Proofs.Settings.Keeping
import Interview.Proofs.Toml.Reloading
import Interview.Proofs.Walk.FirstStop
import Interview.Proofs.Walk.Nesting
import Interview.Proofs.Walk.Preflight
import Interview.Proofs.Session.Conversation
import Interview.Proofs.Session.Lasting
import Interview.Proofs.Walk.Failures
import Interview.Proofs.Walk.Remaining
import Interview.Proofs.Session.Settling
import Interview.Proofs.Walk.Expansion
import Interview.Proofs.Session.Regardless
import Interview.Proofs.Session.Exchange
import Interview.Proofs.Answers.Masking
import Interview.Proofs.Settings.Reordering
import Interview.Proofs.Walk.Effect
import Interview.Proofs.Settings.Flattening
import Interview.Proofs.Settings.Restoring
import Interview.Proofs.Session.PatternResets
import Interview.Proofs.Settings.Removal
import Interview.Proofs.Comparison
import Interview.Proofs.Session.Verdict
import Interview.Proofs.Item.LoopKeys
import Interview.Proofs.Item.SortedChoices
import Interview.Proofs.Item.Choosing
import Interview.Proofs.Walk.Counting
import Interview.Proofs.Answers.Delivery
import Interview.Proofs.Range
import Interview.Proofs.Session.Ceiling
import Interview.Proofs.Number.Shortest
import Interview.Proofs.Item.Repetition
import Interview.Proofs.Files.Resolving
import Interview.Proofs.Answers.Screen
import Interview.Proofs.Configuration.Layering
import Interview.Proofs.Document.UnknownFields
