import Mathlib.Data.List.Basic
import Retouch.Record

/-!
# Values of records

Where names come more than once, the first value is the one that is found, and the last one is the
one that is left when all are set. A record that holds the last values already stays as it is when
they are set again, although other values are under the same names on the way.
-/

namespace Retouch

namespace Record

variable {Value Name : Type} [DecidableEq Name] {name other : Name} {value : Value}
    {record : Record Value Name}
  {changes : List (Name × Value)}

theorem get?_append (name : Name) (front back : Record Value Name) :
    get? name (front ++ back) = (get? name front).or (get? name back) := by
  induction front with
  | nil => rfl
  | cons pair front ih =>
      rw [List.cons_append, get?, get?]
      split
      · rfl
      · exact ih

theorem get?_eq_find? (name : Name) (record : Record Value Name) :
    get? name record = (record.find? fun pair => pair.1 = name).map Prod.snd := by
  induction record with
  | nil => rfl
  | cons pair rest ih =>
      rw [get?, List.find?_cons]
      by_cases same : pair.1 = name
      · simp [same]
      · simp [same, ih]

theorem isSome_get?_iff : (get? name record).isSome ↔ name ∈ record.map Prod.fst := by
  induction record with
  | nil => simp
  | cons pair rest ih =>
      rw [get?, List.map_cons, List.mem_cons]
      split
      · next same => simp [same]
      · next different => simp [ih, Ne.symm different]

theorem isSome_get?_reverse : (get? name record.reverse).isSome ↔
    name ∈ record.map Prod.fst := by
  rw [isSome_get?_iff, List.map_reverse, List.mem_reverse]

theorem get?_set (name other : Name) (value : Value) (record : Record Value Name) :
    get? other (record.set name value) = if name = other then some value
      else get? other record := by
  split
  · next same => rw [same, get?_set_self]
  · next different => exact get?_set_of_ne (Ne.symm different) value record

/-- Of the values that are set the last one counts. -/
theorem get?_setAll (name : Name) (record : Record Value Name) (changes : List (Name × Value)) :
    get? name (record.setAll changes) = (get? name changes.reverse).or (get? name record) := by
  induction changes generalizing record with
  | nil => rfl
  | cons change changes ih =>
      have step : record.setAll (change :: changes) =
          (record.set change.1 change.2).setAll changes := rfl
      rw [step, ih, List.reverse_cons, get?_append, get?_set, get?, Option.or_assoc]
      split <;> rfl

theorem set_eq_self (holds : get? name record = some value) : record.set name value = record := by
  induction record with
  | nil => cases holds
  | cons pair rest ih =>
      rw [get?] at holds
      rw [set]
      split
      · next same =>
          rw [if_pos same, Option.some.injEq] at holds
          rw [← same, ← holds]
      · next different =>
          rw [if_neg different] at holds
          rw [ih holds]

theorem set_set (name : Name) (old value : Value) (record : Record Value Name) :
    (record.set name old).set name value = record.set name value := by
  induction record with
  | nil => simp [set]
  | cons pair rest ih =>
      by_cases same : pair.1 = name
      · simp [set, same]
      · simp [set, same, ih]

theorem set_comm (different : name ≠ other) (present : name ∈ record.map Prod.fst)
    (value otherValue : Value) :
    (record.set name value).set other otherValue =
      (record.set other otherValue).set name value := by
  induction record with
  | nil => cases present
  | cons pair rest ih =>
      by_cases isName : pair.1 = name
      · have noOther : pair.1 ≠ other := fun isOther => different (isName.symm.trans isOther)
        simp [set, isName, different]
      · by_cases isOther : pair.1 = other
        · simp [set, isOther, Ne.symm different]
        · have later : name ∈ rest.map Prod.fst := by simpa [Ne.symm isName] using present
          simp [set, isName, isOther, ih later]

/-- A value that is replaced later on need not be set at all. -/
theorem setAll_set (present : name ∈ record.map Prod.fst) (later : name ∈ changes.map Prod.fst)
    (value : Value) :
    (record.set name value).setAll changes = record.setAll changes := by
  induction changes generalizing record with
  | nil => cases later
  | cons change changes ih =>
      rcases change with ⟨other, otherValue⟩
      change ((record.set name value).set other otherValue).setAll changes =
        (record.set other otherValue).setAll changes
      by_cases same : name = other
      · rw [same, set_set]
      · have later' : name ∈ changes.map Prod.fst := by simpa [same] using later
        have present' : name ∈ (record.set other otherValue).map Prod.fst := by
          rw [← isSome_get?_iff, get?_set, if_neg (Ne.symm same), isSome_get?_iff]
          exact present
        rw [set_comm same present, ih present' later']

/-- A record that holds the last values already stays as it is. -/
theorem setAll_eq_self (holds : ∀ name ∈ changes.map Prod.fst, get? name record =
    get? name changes.reverse) :
    record.setAll changes = record := by
  induction changes with
  | nil => rfl
  | cons change changes ih =>
      rcases change with ⟨name, value⟩
      have last (other : Name) : get? other ((name, value) :: changes).reverse =
          (get? other changes.reverse).or (get? other [(name, value)]) := by
        rw [List.reverse_cons, get?_append]
      have rest : record.setAll changes = record := by
        apply ih
        intro other member
        have found := isSome_get?_reverse.mpr member
        rw [holds other (List.mem_cons_of_mem _ member), last, Option.or_of_isSome found]
      have here := holds name List.mem_cons_self
      rw [last] at here
      change (record.set name value).setAll changes = record
      by_cases later : name ∈ changes.map Prod.fst
      · have present : name ∈ record.map Prod.fst := by
          rw [← isSome_get?_iff, here, Option.or_of_isSome (isSome_get?_reverse.mpr later)]
          exact isSome_get?_reverse.mpr later
        rw [setAll_set present later, rest]
      · have absent : get? name changes.reverse = none :=
          Option.not_isSome_iff_eq_none.mp (mt isSome_get?_reverse.mp later)
        rw [absent, Option.none_or, get?, if_pos rfl] at here
        rw [set_eq_self here, rest]

end Record

end Retouch
