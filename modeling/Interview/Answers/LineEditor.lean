/-! Editing one line with key presses. The echo of a press is what has to be printed so that the screen
shows the line; a masked line has no echo. -/

namespace Interview

inductive KeyCode where
  | char (c : Char)
  | enter
  | backspace
  | other
deriving DecidableEq

structure KeyPress where
  code : KeyCode
  control : Bool
  released : Bool
deriving DecidableEq

structure LineEditor where
  /-- The characters typed, the last one first. -/
  reversed : List Char
  masked : Bool

inductive EditStep where
  /-- Editing goes on after this text is printed. -/
  | echo (text : List Char)
  | submit
  | interrupt
  | endOfInput
deriving DecidableEq

namespace LineEditor

def start (masked : Bool) : LineEditor := ⟨[], masked⟩

def line (e : LineEditor) : List Char := e.reversed.reverse

/-- What a masked line does not show. -/
def visible (e : LineEditor) (text : List Char) : List Char := if e.masked then [] else text

def eraseText : List Char := ['\x08', ' ', '\x08']

def feed (e : LineEditor) (k : KeyPress) : EditStep × LineEditor :=
  if k.released then (.echo [], e)
  else
    match k.code with
    | .enter => (.submit, e)
    | .backspace =>
      match e.reversed with
      | [] => (.echo [], e)
      | _ :: rest => (.echo (e.visible eraseText), { e with reversed := rest })
    | .char c =>
      if k.control then
        if c = 'c' then (.interrupt, e)
        else if c = 'd' ∧ e.reversed = [] then (.endOfInput, e)
        else (.echo [], e)
      else (.echo (e.visible [c]), { e with reversed := c :: e.reversed })
    | .other => (.echo [], e)

end LineEditor
end Interview
