import Interview.Walk.Basic
import Interview.Walk.Outline

/-! One pass over a document, depth first, up to the first item that waits for a value. Other nodes act
on the way. Any change except that of an update ends the pass, since it may decide a condition
differently that was passed before. -/

namespace Interview

inductive Scan where
  | found (item : Item)
  /-- Something changed at this place, and the pass has to be repeated. -/
  | restart (place : WalkPath)
  | exhausted

namespace Walk

/-- Whether a list of values holds the current one, where both are there. -/
def isMember (current : Option Value) (values : List Value) : Bool :=
  match current with
  | some v => values.any (·.isSame v)
  | none => false

/-- A branch is passed over if its value is not among those that admit it and is among those that bar
it; a missing list admits nothing and bars everything, but without either list all are admitted. -/
def admits (n : Node) (current : Option Value) : Bool :=
  match n.matchValues, n.matchNotValues with
  | none, none => true
  | some values, none => isMember current values
  | none, some barred => !isMember current barred
  | some values, some barred => isMember current values || !isMember current barred

def branchMatches (n : Node) (place : WalkPath) : Walk Bool := do
  match n.matchKey with
  | none => return true
  | some key =>
    let store ← store
    let key ← lift (n.storeKey .branch place (some key) store)
    return admits n (store.get? key)

def isDue (n : Node) (store : Settings) (key : String) : Bool := !store.contains key || n.force

/-- Commits the node's own value if its key waits for one; whether anything was written. -/
def autoCommit (sp : SearchPath) (fs : FileSystem) (n : Node) (kind : Kind) (place : WalkPath) :
    Walk Bool := do
  let store ← store
  let key ← lift (n.storeKey kind place none store)
  if isDue n store key then
    let item ← lift (Item.resolve sp fs n kind place store)
    discard (commit item n.value)
    return true
  else return false

def keyedCommit (sp : SearchPath) (fs : FileSystem) (n : Node) (kind : Kind) (place : WalkPath) :
    Walk Bool :=
  if n.key.isSome then autoCommit sp fs n kind place else return false

def interactive (sp : SearchPath) (fs : FileSystem) (n : Node) (kind : Kind) (place : WalkPath) :
    Walk Scan := do
  if n.key.isNone then return .exhausted
  else
    let store ← store
    let key ← lift (n.storeKey kind place none store)
    if isDue n store key then
      return .found (← lift (Item.resolve sp fs n kind place store))
    else return .exhausted

def deleteKeys (n : Node) (place : WalkPath) : List String → Walk (List String)
  | [] => return []
  | key :: rest => do
    let key ← lift (n.storeKey .reset place (some key) (← store))
    if (← store).contains key then
      delete key
      return key :: (← deleteKeys n place rest)
    else deleteKeys n place rest

def deleteMatching (p : Pattern) : List String → Walk (List String)
  | [] => return []
  | key :: rest => do
    if p.matchesAtStart key then
      delete key
      return key :: (← deleteMatching p rest)
    else deleteMatching p rest

/-- Deletes the named keys, or else the leaves whose keys match a pattern. -/
def deleteTargets (n : Node) (place : WalkPath) : Walk (List String) := do
  match n.resetKeys, n.resetKeyRegexp with
  | some keys, _ => deleteKeys n place keys
  | none, some source =>
    let p ← lift (compilePattern source)
    deleteMatching p (← store).keys
  | none, none => throw (.badItem .reset place .noTargets)

def reset (sp : SearchPath) (fs : FileSystem) (n : Node) (place : WalkPath) : Walk Scan := do
  let deleted ← deleteTargets n place
  if !deleted.isEmpty then report [.deleted place deleted]
  let committed ← keyedCommit sp fs n .reset place
  return if deleted.isEmpty && !committed then .exhausted else .restart place

def currentCount (item : Item) (store : Settings) : Except Error Int64 :=
  match store.get? item.key with
  | none => .ok 0
  | some v =>
    match v.toInteger with
    | .ok n => .ok n
    | .error reason => .error (.invalidValue item.key reason)

def stepOf (n : Node) (place : WalkPath) : Except Error Int64 :=
  match n.value with
  | none => .ok 1
  | some v =>
    match v.toInteger with
    | .ok step => .ok step
    | .error reason => .error (.badItem .update place reason)

def update (sp : SearchPath) (fs : FileSystem) (n : Node) (place : WalkPath) : Walk Scan := do
  let store ← store
  let item ← lift (Item.resolve sp fs n .update place store)
  let current ← lift (currentCount item store)
  let step ← lift (stepOf n place)
  match Number.toInt64? (current.toInt + step.toInt) with
  | some total =>
    discard (commit item (some (.int total)))
    return .exhausted
  | none => throw (.invalidValue item.key .counterOverflow)

mutual

def scanEntry (sp : SearchPath) (fs : FileSystem) : Outline → Walk Scan
  | .entry place n inner => do
    if n.disabled then return .exhausted
    else
      match ← lift (n.kindAt place) with
      | .branch =>
        if !(← branchMatches n place) then return .exhausted
        else if ← keyedCommit sp fs n .branch place then return .restart place
        else
          match inner with
          | some entries => scanEntries sp fs entries
          | none => return .exhausted
      | .inclusion =>
        match inner with
        | some entries => scanEntries sp fs entries
        | none =>
          discard (openInclude sp fs n place)
          return .restart place
      | .set => return if ← keyedCommit sp fs n .set place then .restart place else .exhausted
      | .reset => reset sp fs n place
      | .update => update sp fs n place
      | .notice => interactive sp fs n .notice place
      | .question => interactive sp fs n .question place

def scanEntries (sp : SearchPath) (fs : FileSystem) : List Outline → Walk Scan
  | [] => return .exhausted
  | entry :: rest => do
    match ← scanEntry sp fs entry with
    | .exhausted => scanEntries sp fs rest
    | scan => return scan

end

/-- One pass over a document. -/
def scan (sp : SearchPath) (fs : FileSystem) (nodes : List Node) : Walk Scan := do
  scanEntries sp fs (Outline.ofDocument (← get).includes nodes)

end Walk
end Interview
