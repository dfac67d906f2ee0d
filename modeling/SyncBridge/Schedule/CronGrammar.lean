import Mathlib.Data.Set.Basic
import Mathlib.Data.List.Forall2
import SyncBridge.Numerals
import SyncBridge.Services.CronUtils

/-!
# The grammar of cron expressions

Five fields, each a list of segments, with every number written in decimal
digits.  What a segment stands for is said without the parser: a progression
from its first to its last value, in which 7 is another name of Sunday where the
field allows that.
-/

namespace SyncBridge.Cron

/-! ## Segments -/

inductive Segment where
  | all
  | allBy (step : Nat)
  | value (number : Nat)
  | range (first last : Nat)
  | rangeBy (first last step : Nat)

inductive Segment.Spells : List Char → Segment → Prop
  | all : Spells ['*'] .all
  | allBy {text : List Char} {step : Nat} : digits 10 text = some step →
      Spells (['*'] ++ '/' :: text) (.allBy step)
  | value {text : List Char} {number : Nat} : digits 10 text = some number →
      Spells text (.value number)
  | range {text text' : List Char} {first last : Nat} :
      digits 10 text = some first → digits 10 text' = some last →
      Spells (text ++ '-' :: text') (.range first last)
  | rangeBy {text text' text'' : List Char} {first last step : Nat} :
      digits 10 text = some first → digits 10 text' = some last →
      digits 10 text'' = some step →
      Spells ((text ++ '-' :: text') ++ '/' :: text'')
        (.rangeBy first last step)

section Segments

variable (spec : CronFieldSpec)

/-- The field's range, and 7 where it stands for Sunday. -/
def CronFieldSpec.Allows (value : Nat) : Prop :=
  (spec.min ≤ value ∧ value ≤ spec.max) ∨
    (spec.allowSevenAsSunday = true ∧ value = 7)

namespace Segment

def InRange : Segment → Prop
  | .all => True
  | .allBy step => 0 < step
  | .value number => spec.Allows number
  | .range first last => spec.Allows first ∧ spec.Allows last
  | .rangeBy first last step =>
      spec.Allows first ∧ spec.Allows last ∧ 0 < step

def ends : Segment → Option (Nat × Nat)
  | .range first last | .rangeBy first last _ => some (first, last)
  | _ => none

def Ordered (segment : Segment) : Prop :=
  ∀ first last, segment.ends = some (first, last) → first ≤ last

def first : Segment → ℤ
  | .all | .allBy _ => spec.min
  | .value number => number
  | .range first _ | .rangeBy first _ _ => first

def last : Segment → ℤ
  | .all | .allBy _ => spec.max
  | .value number => number
  | .range _ last | .rangeBy _ last _ => last

def step : Segment → Nat
  | .allBy step | .rangeBy _ _ step => step
  | _ => 1

end Segment

def progression (first last step : ℤ) : Set ℤ :=
  {value | ∃ turn : Nat, value = first + turn * step ∧ value ≤ last}

/-- 7 stands for Sunday. -/
def sunday (value : ℤ) : ℤ :=
  if spec.allowSevenAsSunday = true ∧ value = 7 then 0 else value

def Segment.denotes (segment : Segment) : Set ℤ :=
  sunday spec '' progression (segment.first spec) (segment.last spec)
    segment.step

end Segments

/-! ## Expressions -/

def cronFieldSpecs : List CronFieldSpec :=
  [minuteSpec, hourSpec, dayOfMonthSpec, monthSpec, dayOfWeekSpec]

def fieldTexts (expression : String) : List (List Char) :=
  split ' ' (collapseWhiteSpace (trimChars expression.toList))

def WellFormedExpression (expression : String) : Prop :=
  List.Forall₂ (fun spec text => ∀ segmentText ∈ split ',' text,
      ∃ segment, Segment.Spells segmentText segment ∧ segment.InRange spec)
    cronFieldSpecs (fieldTexts expression)

structure Expresses (expression : String) (fields : List (List Segment)) :
    Prop where
  spells : List.Forall₂ (fun text segments =>
    List.Forall₂ Segment.Spells (split ',' text) segments)
      (fieldTexts expression) fields
  inRange : List.Forall₂ (fun spec segments =>
    ∀ segment ∈ segments, segment.InRange spec ∧ segment.Ordered)
      cronFieldSpecs fields

/-! ## Texts -/

theorem split_eq_splitOn (separator : Char) (chars : List Char) :
    split separator chars = chars.splitOn separator := by
  induction chars with
  | nil => rfl
  | cons char chars ih =>
      rw [split, ih, List.splitOn_cons_eq_if_modifyHead]
      cases hrest : chars.splitOn separator with
      | nil => exact absurd hrest (List.splitOn_ne_nil separator chars)
      | cons first rest => simp

theorem split_append {separator : Char} {chars : List Char}
    (h : separator ∉ chars) (rest : List Char) :
    split separator (chars ++ separator :: rest) =
      chars :: split separator rest := by
  rw [split_eq_splitOn, split_eq_splitOn,
    List.splitOn_append_cons_self_of_not_mem h]

theorem split_of_not_mem {separator : Char} {chars : List Char}
    (h : separator ∉ chars) : split separator chars = [chars] := by
  rw [split_eq_splitOn, List.splitOn_eq_singleton h]

theorem intercalate_split (separator : Char) (chars : List Char) :
    [separator].intercalate (split separator chars) = chars := by
  rw [split_eq_splitOn, List.intercalate_splitOn]

theorem mem_of_mem_split {separator char : Char} {chars piece : List Char}
    (hpiece : piece ∈ split separator chars) (hchar : char ∈ piece) :
    char ∈ chars ∧ char ≠ separator := by
  induction chars generalizing piece with
  | nil =>
      obtain rfl := List.mem_singleton.mp hpiece
      cases hchar
  | cons head chars ih =>
      rw [split] at hpiece
      cases hsplit : split separator chars with
      | nil =>
          rw [split_eq_splitOn] at hsplit
          exact absurd hsplit (List.splitOn_ne_nil separator chars)
      | cons first rest =>
          rw [hsplit] at hpiece ih
          simp only at hpiece
          split at hpiece
          · rcases List.mem_cons.mp hpiece with rfl | hmem
            · cases hchar
            · exact ⟨List.mem_cons_of_mem _ (ih hmem hchar).1,
                (ih hmem hchar).2⟩
          · rename_i hhead
            rcases List.mem_cons.mp hpiece with rfl | hmem
            · rcases List.mem_cons.mp hchar with rfl | hchar
              · exact ⟨List.mem_cons_self, hhead⟩
              · exact ⟨List.mem_cons_of_mem _ (ih List.mem_cons_self hchar).1,
                  (ih List.mem_cons_self hchar).2⟩
            · have hrest := ih (List.mem_cons_of_mem _ hmem) hchar
              exact ⟨List.mem_cons_of_mem _ hrest.1, hrest.2⟩

theorem eq_space_of_mem_collapse {char : Char} {chars : List Char}
    (hmem : char ∈ collapseWhiteSpace chars)
    (hspace : isWhiteSpace char = true) : char = ' ' := by
  fun_induction collapseWhiteSpace chars with
  | case1 => cases hmem
  | case2 head chars hhead ih =>
      rcases List.mem_cons.mp hmem with rfl | hmem
      · rw [hspace] at hhead
        cases hhead
      · exact ih hmem
  | case3 head hhead next chars hnext ih => exact ih hmem
  | case4 head hhead next chars hnext ih =>
      rcases List.mem_cons.mp hmem with rfl | hmem
      · rfl
      · exact ih hmem
  | case5 head hhead => exact List.mem_singleton.mp hmem

theorem trimChars_segment {expression : String} {text segmentText : List Char}
    (htext : text ∈ fieldTexts expression)
    (hsegment : segmentText ∈ split ',' text) :
    trimChars segmentText = segmentText := by
  refine trimChars_of_forall fun char hchar => ?_
  by_contra hspace
  rw [Bool.not_eq_false] at hspace
  obtain ⟨hmem, hne⟩ :=
    mem_of_mem_split htext (mem_of_mem_split hsegment hchar).1
  exact hne (eq_space_of_mem_collapse hmem hspace)

end SyncBridge.Cron
