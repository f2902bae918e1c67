import Interview.Item.Basic
import Interview.Walk.Include

/-! Walks through a document. A walk changes the store and the cache of includes, and what it did before
an error stays done. -/

namespace Interview

structure Progress where
  store : Settings
  includes : IncludeCache
  log : List Event

abbrev Walk := ExceptT Error (StateM Progress)

namespace Walk

def store : Walk Settings := do return (← get).store

def setStore (store : Settings) : Walk Unit := modify fun p => { p with store }

def report (events : List Event) : Walk Unit := modify fun p => { p with log := p.log ++ events }

/-- A step that cannot change anything. -/
def lift (r : Except Error α) : Walk α :=
  match r with
  | .ok a => pure a
  | .error e => throw e

def commit (item : Item) (given : Option Value) : Walk Value := do
  let (stored, store) := item.write (← store) given
  setStore store
  lift stored

def delete (key : String) : Walk Unit := do
  let (_, store) ← lift ((← store).delete key)
  setStore store

def openInclude (sp : SearchPath) (fs : FileSystem) (n : Node) (place : WalkPath) :
    Walk (List Node) := do
  let cache := (← get).includes
  let opened ← lift (cache.openAt sp fs n place)
  modify fun p => { p with includes := cache.add place opened }
  report opened.events
  return opened.included.nodes

end Walk
end Interview
