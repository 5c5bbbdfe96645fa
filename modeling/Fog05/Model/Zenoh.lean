import Fog05.Conc.Template
import Fog05.Model.Store

/-! The zenoh store that both connectors work on: encoded values under paths,
and selectors in which `*` stands for one segment. Absent from the model are
the failures of zenoh itself. -/

namespace Fog05

open Conc

/-- A path, cut at its slashes. -/
abbrev Path := List String

/-- `Value::Raw`, which is what the connectors write, and the other encodings. -/
inductive Value
  | raw (buf : List UInt8)
  | other

/-- `Serialize` and `DeserializeOwned`, as the feature chosen at build time implements them. -/
class Serde (α : Type) where
  serializeData : α → Except FError (List UInt8)
  deserializeData : List UInt8 → Except FError α
  round_trip : ∀ a, serializeData a >>= deserializeData = .ok a

/-- `Display` of `Uuid`. -/
class DisplayUuid where
  display : Uuid → String
  injective : Function.Injective display
  no_slash : ∀ u, '/' ∉ (display u).toList
  no_star : ∀ u, '*' ∉ (display u).toList

export Serde (serializeData deserializeData)
export DisplayUuid (display)

abbrev Zenoh := Table (Prod.fst : Path × Value → Path)

namespace Zenoh

variable {α : Type} [Serde α]

/-- `Workspace::get`. -/
def get (selector : Path) (z : Zenoh) : List (Path × Value) := z.select (Matches "*" selector)

def decode : Value → Except FError α
  | .raw buf => deserializeData buf
  | .other => .error .encodingError

def getOne (selector : Path) (z : Zenoh) : Except FError α :=
  single (z.get selector) >>= fun kv => decode kv.2

def getAll (selector : Path) (z : Zenoh) : Except FError (List α) :=
  (z.get selector).mapM fun kv => decode kv.2

def add (path : Path) (info : α) (z : Zenoh) : Except FError Unit × Zenoh :=
  match serializeData info with
  | .error e => (.error e, z)
  | .ok buf => (.ok (), z.put (path, .raw buf))

def remove (path : Path) (z : Zenoh) : Except FError Unit × Zenoh := (.ok (), z.erase path)

/-- The body of a remove function that looks up first what it is to remove. -/
def removeFound (found : Except FError α) (path : α → Path) (z : Zenoh) :
    Except FError Unit × Zenoh :=
  match found with
  | .error e => (.error e, z)
  | .ok info => z.remove (path info)

end Zenoh

end Fog05
