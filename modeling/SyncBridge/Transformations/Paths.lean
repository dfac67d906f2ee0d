import SyncBridge.Store

/-!
# Paths into records

`path-utils.ts`: dotted paths, reading a value at a path and setting one.  A
key that a plain object does not have is read from `Object.prototype`, whose
members are functions; setting one is always possible.
-/

namespace SyncBridge

/-- What a program may read from a record. -/
inductive Value where
  | json (value : Json)
  | method (name : String)

namespace Paths

def dangerousPathKeys : List String := ["__proto__", "prototype", "constructor"]

def splitPath (path : String) : List String :=
  ((path.toList.splitOn '.').map fun segment =>
    trim (String.ofList segment)).filter fun segment => !segment.isEmpty

def assertSafePath (path : String) : Except Failure (List String) :=
  match splitPath path with
  | [] => .error (.error "Path must contain at least one segment")
  | segments =>
      match segments.find? dangerousPathKeys.contains with
      | some segment =>
          .error (.error s!"Path contains unsafe segment: {segment}")
      | none => .ok segments

/-- The members of `Object.prototype`, apart from the dangerous keys. -/
def prototypeMethods : List String :=
  ["hasOwnProperty", "isPrototypeOf", "propertyIsEnumerable", "toLocaleString",
    "toString", "valueOf", "__defineGetter__", "__defineSetter__",
    "__lookupGetter__", "__lookupSetter__"]

/-- `record[key]`, `none` for `undefined`. -/
def readKey (record : Record) (key : String) : Option Value :=
  match record.get key with
  | some value => some (.json value)
  | none => if prototypeMethods.contains key then some (.method key) else none

def readSegments : List String → Option Value → Option Value
  | [], current => current
  | segment :: segments, some (.json (.obj fields)) =>
      readSegments segments (readKey fields segment)
  | _ :: _, _ => none

def getByPath (source : Record) (path : String) :
    Except Failure (Option Value) := do
  let segments ← assertSafePath path
  pure (readSegments segments (some (.json (.obj source))))

/-- `record[key] = value`. -/
def assignKey (key : String) (value : Json) : Record → Record
  | [] => [(key, value)]
  | (other, old) :: rest =>
      if other = key then (key, value) :: rest
      else (other, old) :: assignKey key value rest

/-- The object below a key, a new one where there is none. -/
def objectBelow (record : Record) (key : String) : Record :=
  match record.get key with
  | some (.obj fields) => fields
  | _ => []

def setSegments (value : Json) : List String → Record → Record
  | [], target => target
  | [segment], target => assignKey segment value target
  | segment :: segments, target =>
      assignKey segment
        (.obj (setSegments value segments (objectBelow target segment))) target

def setByPath (target : Record) (path : String) (value : Json) :
    Except Failure Record := do
  let segments ← assertSafePath path
  pure (setSegments value segments target)

end Paths

end SyncBridge
