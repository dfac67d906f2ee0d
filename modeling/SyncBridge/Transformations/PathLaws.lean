import SyncBridge.Transformations.Writes

/-!
# The laws of reading and writing at a path

`getByPath` returns what `setByPath` has put at the path, of two writes at one
path the second alone counts, and a write changes nothing that is held at a
path lying apart from its own.
-/

namespace SyncBridge.Paths

section Segments

variable {key : String} {segments : List String} {first second : Json}
  {target : Record}

theorem assignKey_assignKey :
    assignKey key second (assignKey key first target) =
      assignKey key second target := by
  induction target with
  | nil => simp [assignKey]
  | cons field target ih =>
      obtain ⟨name, old⟩ := field
      by_cases hname : name = key
      · simp [assignKey, hname]
      · simp [assignKey, hname, ih]

theorem objectBelow_of_get {fields : Record}
    (h : target.get key = some (.obj fields)) :
    objectBelow target key = fields := by
  simp only [objectBelow, h]

/-- The first write leaves the containers in place that the second creates. -/
theorem setSegments_setSegments :
    setSegments second segments (setSegments first segments target) =
      setSegments second segments target := by
  induction segments generalizing target with
  | nil => rfl
  | cons segment segments ih =>
      have hbelow : below second segments (objectBelow
          (setSegments first (segment :: segments) target) segment) =
          below second segments (objectBelow target segment) := by
        cases segments with
        | nil => rfl
        | cons next rest =>
            have hleft : objectBelow
                (setSegments first (segment :: next :: rest) target) segment =
                setSegments first (next :: rest) (objectBelow target segment) :=
              objectBelow_of_get (by simp [setSegments])
            simp only [below, hleft, ih]
      rw [setSegments_cons, hbelow, setSegments_cons, setSegments_cons,
        assignKey_assignKey]

end Segments

/-- The value that own properties of plain objects lead to. -/
def ownValue : List String → Record → Option Json
  | [], target => some (.obj target)
  | [key], target => target.get key
  | key :: segments, target =>
      match target.get key with
      | some (.obj fields) => ownValue segments fields
      | _ => none

section Own

variable {segments : List String} {value : Json} {target : Record}

theorem readPath_of_ownValue (h : ownValue segments target = some value) :
    readPath segments target = some (.json value) := by
  induction segments generalizing target with
  | nil =>
      obtain rfl := Option.some.inj h
      rfl
  | cons key segments ih =>
      cases segments with
      | nil =>
          simp only [ownValue] at h
          rw [readPath_cons, readKey_of_get h]
          rfl
      | cons next rest =>
          rw [readPath_cons]
          cases hget : target.get key with
          | none => simp [ownValue, hget] at h
          | some found =>
              rw [readKey_of_get hget]
              cases found with
              | obj fields =>
                  simp only [ownValue, hget] at h
                  exact ih h
              | _ => simp [ownValue, hget] at h

end Own

section Laws

variable {path other : String} {segments others : List String}
  {target : Record} {value : Json}

theorem splitPath_ne_nil (h : assertSafePath path = .ok segments) :
    segments ≠ [] := by
  rintro rfl
  simp only [assertSafePath] at h
  split at h
  · cases h
  · split at h
    · cases h
    · rename_i hsome _ _
      obtain hnil := Except.ok.inj h
      exact hsome hnil

theorem setByPath_of_safe (h : assertSafePath path = .ok segments) :
    setByPath target path value = .ok (setSegments value segments target) := by
  simp only [setByPath, h]
  rfl

theorem getByPath_of_safe (h : assertSafePath path = .ok segments) :
    getByPath target path = .ok (readPath segments target) := by
  simp only [getByPath, h]
  rfl

end Laws

/-- The value at a path is the one last put there, and only that write shows;
what own properties hold at a path lying apart from it stays as it was. -/
theorem paths_are_lenses (target : Record) (value : Json) {path other : String}
    {segments others : List String}
    (hpath : assertSafePath path = .ok segments)
    (hother : assertSafePath other = .ok others) :
    ∃ after, setByPath target path value = .ok after ∧
      getByPath after path = .ok (some (.json value)) ∧
      (∀ second, setByPath after path second =
        setByPath target path second) ∧
      (Apart segments others → (ownValue others target).isSome →
        getByPath after other = getByPath target other) := by
  refine ⟨setSegments value segments target, setByPath_of_safe hpath, ?_, ?_,
    ?_⟩
  · rw [getByPath_of_safe hpath,
      readPath_setSegments (splitPath_ne_nil hpath)]
  · intro second
    rw [setByPath_of_safe hpath, setByPath_of_safe hpath,
      setSegments_setSegments]
  · intro hapart hown
    obtain ⟨held, hheld⟩ := Option.isSome_iff_exists.mp hown
    have hread := readPath_of_ownValue hheld
    rw [getByPath_of_safe hother, getByPath_of_safe hother, hread,
      readPath_apart hapart.symm hread]

/-- One write below a key that another path goes through as well. -/
theorem paths_are_lenses_nested :
    ∃ after, setByPath [("a", .obj [("b", .num 1)])] "a.c" (.bool true) =
        .ok after ∧
      getByPath after "a.c" = .ok (some (.json (.bool true))) ∧
      (∀ second, setByPath after "a.c" second =
        setByPath [("a", .obj [("b", .num 1)])] "a.c" second) ∧
      (Apart ["a", "c"] ["a", "b"] →
        (ownValue ["a", "b"] [("a", .obj [("b", .num 1)])]).isSome →
        getByPath after "a.b" =
          getByPath [("a", .obj [("b", .num 1)])] "a.b") :=
  paths_are_lenses _ _ (by decide +kernel) (by decide +kernel)

end SyncBridge.Paths
