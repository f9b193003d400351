import PayloadAtlas.Model

/-!
# The model registry

A `Registry` looks models up by module and name, or by name alone. Among the models with one name the
one registered last answers to the name alone. `register` records each time that such an answer is
replaced; a model registered again in its own module is a replacement as well.

The two looks are lists with one entry per key; `find_put_self` and `find_put_of_ne` say all there is to
know about writing to them.
-/

namespace PayloadAtlas

namespace Registry

variable {κ : Type} [DecidableEq κ]

/-- Puts `m` in the place of the model with the same key, or at the end. -/
def put (key : Model → κ) (m : Model) : List Model → List Model
  | [] => [m]
  | x :: xs => if key x = key m then m :: xs else x :: put key m xs

/-- The model with the key `k`. -/
def find (key : Model → κ) (k : κ) (xs : List Model) : Option Model := xs.find? (key · = k)

/-- What was put is found by its own key. -/
theorem find_put_self (key : Model → κ) (m : Model) (xs : List Model) :
    find key (key m) (put key m xs) = some m := by
  induction xs with
  | nil => simp [put, find]
  | cons x xs ih =>
    by_cases h : key x = key m
    · simp [put, find, h]
    · simpa [put, find, h] using ih

/-- Putting `m` changes nothing for any key `k` but that of `m`. -/
theorem find_put_of_ne (key : Model → κ) {m : Model} {k : κ} (h : k ≠ key m) (xs : List Model) :
    find key k (put key m xs) = find key k xs := by
  induction xs with
  | nil => simp [put, find, Ne.symm h]
  | cons x xs ih =>
    by_cases hx : key x = key m
    · simp [put, find, hx, Ne.symm h]
    · by_cases hk : key x = k
      · simp [put, find, hk, h]
      · simpa [put, find, hx, hk] using ih

end Registry

/-- A name whose model was replaced by a later one. -/
structure Collision where
  name : String
  /-- The module of the model that was replaced. -/
  replacedModule : String
  /-- The module of the model that answers now. -/
  module : String
  deriving DecidableEq, Repr, Inhabited

/-- The models of a scan. -/
structure Registry where
  /-- One model for each module and name. -/
  qualified : List Model := []
  /-- One model for each name: the last one registered. -/
  latest : List Model := []
  /-- The replacements among the latter, in order. -/
  collisions : List Collision := []
  deriving Repr, Inhabited

namespace Registry

/-- The key of a model among all: `module` and `name`. -/
def qualifiedKey (m : Model) : String × String := (m.module, m.name)

/-- The model of that `name` in `module`. -/
def getQualified (r : Registry) (module name : String) : Option Model :=
  find qualifiedKey (module, name) r.qualified

/-- The model of that `name` that was registered last, in whatever module. -/
def getLatest (r : Registry) (name : String) : Option Model := find Model.name name r.latest

/-- The number of models, counting one for each `qualifiedKey`. -/
def size (r : Registry) : Nat := r.qualified.length

/-- What the registration of `m` replaces among the models that answer to their names alone. -/
def collision? (r : Registry) (m : Model) : Option Collision :=
  (r.getLatest m.name).map fun old => ⟨m.name, old.module, m.module⟩

/-- Registers a model. -/
def register (r : Registry) (m : Model) : Registry where
  qualified := put qualifiedKey m r.qualified
  latest := put Model.name m r.latest
  collisions := r.collisions ++ (r.collision? m).toList

/-- The part of `declaredType` after its last dot. -/
def lastComponent (declaredType : String) : String :=
  String.ofList (declaredType.toList.reverse.takeWhile (· != '.')).reverse

/-- The model that an annotation written in a module means: the one of that name in the module itself,
or else the one of that name that was registered last. -/
def resolve (r : Registry) (module declaredType : String) : Option Model :=
  if declaredType = "" then none
  else
    let name := lastComponent declaredType
    (r.getQualified module name).or (r.getLatest name)

/-- The registry of a list of models, by `register` one after the other. -/
def ofList (ms : List Model) : Registry := ms.foldl register {}

end Registry

end PayloadAtlas
