import Interview.Number.Integer
import Interview.Yaml.Cursor

/-! Tags of nodes. A tag is a list of bytes, since percent escapes in it may spell bytes that are no
text. An escaped zero byte ends the tag, whatever stands after it. -/

namespace Interview.Yaml

abbrev Tag := List UInt8

namespace Tag

def ofAscii (cs : List Char) : Tag := cs.map fun c => c.toNat.toUInt8

def standard (name : String) : Tag := ofAscii ("tag:yaml.org,2002:" ++ name).toList

/-- The exclamation mark, with which tags local to an application start. -/
def localMark : UInt8 := 0x21

def hasLocalMark (t : Tag) : Bool := t.head? == some localMark

def isLocal (t : Tag) : Bool := t.hasLocalMark && (String.fromUTF8? t.tail.toByteArray).isSome

def byteWidth? (b : UInt8) : Option Nat :=
  if b < 0x80 then some 1
  else if 0xC0 ≤ b ∧ b < 0xE0 then some 2
  else if 0xE0 ≤ b ∧ b < 0xF0 then some 3
  else if 0xF0 ≤ b ∧ b < 0xF8 then some 4
  else none

end Tag

namespace Cursor

def nameAndRest (p : Cursor) : List Char × Cursor :=
  (p.rest.takeWhile isNameChar, p.skipWhile isNameChar)

def tagHandle? (directive : Bool) (p : Cursor) : Option (List Char × Cursor) :=
  if p.sees '!' then
    let (name, after) := p.skip.nameAndRest
    if after.sees '!' then some ('!' :: name ++ ['!'], after.skip)
    else if directive && !name.isEmpty then none
    else some ('!' :: name, after)
  else none

def isUriChar (verbatim : Bool) (c : Char) : Bool :=
  isNameChar c || ";/?:@&=+$.%!~*'()".toList.contains c ||
    (verbatim && (c == ',' || c == '[' || c == ']'))

def escapedByte? (p : Cursor) : Option (UInt8 × Cursor) :=
  match p.rest with
  | '%' :: high :: low :: _ => (Number.ofHex? [high, low]).map fun n => (n.toUInt8, p.skipBy 3)
  | _ => none

/-- The escaped bytes of one character. Each has its place in one, but together they need not be the
encoding of any. -/
def escapedBytes? (p : Cursor) : Option (Tag × Cursor) := do
  let (first, p) ← p.escapedByte?
  let width ← Tag.byteWidth? first
  (List.range (width - 1)).foldlM (fun (bytes, p) _ => do
    let (next, p) ← p.escapedByte?
    if 0x80 ≤ next ∧ next < 0xC0 then some (bytes ++ [next], p) else none) ([first], p)

def uriBytes? (verbatim : Bool) : Nat → Cursor → Option (Tag × Cursor)
  | 0, _ => none
  | fuel + 1, p =>
    match p.peek with
    | none => some ([], p)
    | some c =>
      if !isUriChar verbatim c then some ([], p)
      else do
        let (bytes, next) ← if c = '%' then p.escapedBytes? else some (Tag.ofAscii [c], p.skip)
        let (more, p) ← uriBytes? verbatim fuel next
        some (bytes ++ more, p)

/-- The bytes of a tag. Text already read, which starts with an exclamation mark, counts toward its
being there at all, and all but the mark belongs to the tag. -/
def tagBytes? (verbatim : Bool) (head : List Char) (p : Cursor) : Option (Tag × Cursor) := do
  let (more, next) ← uriBytes? verbatim (p.rest.length + 1) p
  if head.isEmpty && more.isEmpty then none
  else some ((Tag.ofAscii head.tail ++ more).takeWhile (· != 0), next)

end Cursor
end Interview.Yaml
