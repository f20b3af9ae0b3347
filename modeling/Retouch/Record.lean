import Retouch.Text.Basic

/-!
# Records

A record is a list of named values in the order in which the names first came. Setting a name that
is present gives it a new value in its old place.
-/

namespace Retouch

/-- Named values in order; the names are texts unless said otherwise. -/
abbrev Record (Value : Type) (Name : Type := Text) := List (Name × Value)

namespace Record

variable {Value Name : Type} [DecidableEq Name]

def get? (name : Name) : Record Value Name → Option Value
  | [] => none
  | (other, value) :: rest => if other = name then some value else get? name rest

/-- The record with a value under a name: in its place if the name is present, else at the end. -/
def set (name : Name) (value : Value) : Record Value Name → Record Value Name
  | [] => [(name, value)]
  | (other, old) :: rest =>
      if other = name then (name, value) :: rest else (other, old) :: set name value rest

/-- The record with all values of another one set, in order. -/
def setAll (record changes : Record Value Name) : Record Value Name :=
  changes.foldl (fun result (name, value) => result.set name value) record

/-- The record of a list of pairs in which a name may come more than once. -/
def ofPairs (pairs : List (Name × Value)) : Record Value Name :=
  setAll [] pairs

@[simp]
theorem get?_nil (name : Name) : get? name ([] : Record Value Name) = none := rfl

@[simp]
theorem get?_set_self (name : Name) (value : Value) (record : Record Value Name) :
    (record.set name value).get? name = some value := by
  induction record with
  | nil => simp [set, get?]
  | cons pair rest ih => by_cases same : pair.1 = name <;> simp_all [set, get?]

theorem get?_set_of_ne {name other : Name} (different : other ≠ name) (value : Value)
    (record : Record Value Name) : (record.set name value).get? other = record.get? other := by
  induction record with
  | nil => simp [set, get?, different.symm]
  | cons pair rest ih =>
      by_cases same : pair.1 = name
      · simp [set, get?, same, different.symm]
      · simp [set, get?, same, ih]

theorem set_of_notMem {name : Name} {record : Record Value Name}
    (absent : name ∉ record.map Prod.fst)
    (value : Value) : record.set name value = record ++ [(name, value)] := by
  induction record with
  | nil => rfl
  | cons pair rest ih =>
      simp only [List.map_cons, List.mem_cons, not_or] at absent
      rw [set, if_neg (Ne.symm absent.1), ih absent.2, List.cons_append]

/-- New names are set behind those that are there. -/
theorem setAll_eq_append {record changes : Record Value Name}
    (distinct : ((record ++ changes).map Prod.fst).Nodup) :
    record.setAll changes = record ++ changes := by
  induction changes generalizing record with
  | nil => exact (List.append_nil record).symm
  | cons change changes ih =>
      have absent : change.1 ∉ record.map Prod.fst := by
        intro member
        rw [List.map_append, List.nodup_append] at distinct
        exact distinct.2.2 change.1 member change.1 (by simp) rfl
      have step : setAll record (change :: changes) = (record ++ [change]).setAll changes := by
        rw [← set_of_notMem absent]
        rfl
      rw [step, ih (by simpa using distinct)]
      simp

theorem ofPairs_eq_self {pairs : List (Name × Value)} (distinct : (pairs.map Prod.fst).Nodup) :
    ofPairs pairs = pairs :=
  setAll_eq_append distinct

theorem names_set_of_mem {name : Name} {record : Record Value Name}
    (present : name ∈ record.map Prod.fst)
    (value : Value) : (record.set name value).map Prod.fst = record.map Prod.fst := by
  induction record with
  | nil => simp at present
  | cons pair rest ih =>
      by_cases same : pair.1 = name
      · simp [set, same]
      · have later : name ∈ rest.map Prod.fst := by simpa [Ne.symm same] using present
        simp [set, same, ih later]

theorem nodup_set (name : Name) (value : Value) {record : Record Value Name}
    (distinct : (record.map Prod.fst).Nodup) : ((record.set name value).map Prod.fst).Nodup := by
  by_cases present : name ∈ record.map Prod.fst
  · rwa [names_set_of_mem present]
  · rw [set_of_notMem present, List.map_append, List.nodup_append]
    refine ⟨distinct, by simp, fun other member new isNew => ?_⟩
    rcases List.mem_singleton.mp isNew with rfl
    rintro rfl
    exact present member

theorem nodup_setAll (changes : List (Name × Value)) {record : Record Value Name}
    (distinct : (record.map Prod.fst).Nodup) : ((record.setAll changes).map Prod.fst).Nodup := by
  induction changes generalizing record with
  | nil => exact distinct
  | cons change changes ih => exact ih (nodup_set change.1 change.2 distinct)

theorem mem_set {pair : Name × Value} {name : Name} {value : Value} {record : Record Value Name}
    (member : pair ∈ record.set name value) : pair ∈ record ∨ pair = (name, value) := by
  induction record with
  | nil => exact .inr (List.mem_singleton.mp member)
  | cons other rest ih =>
      unfold set at member
      split at member
      · rcases List.mem_cons.mp member with here | later
        · exact .inr here
        · exact .inl (List.mem_cons_of_mem _ later)
      · rcases List.mem_cons.mp member with here | later
        · exact .inl (List.mem_cons.mpr (.inl here))
        · exact (ih later).imp_left (List.mem_cons_of_mem _)

/-- What is set is of the record or of the changes. -/
theorem mem_setAll {pair : Name × Value} {record : Record Value Name}
    {changes : List (Name × Value)}
    (member : pair ∈ record.setAll changes) : pair ∈ record ∨ pair ∈ changes := by
  induction changes generalizing record with
  | nil => exact .inl member
  | cons change changes ih =>
      rcases ih member with inRecord | inChanges
      · exact (mem_set inRecord).imp_right fun same => List.mem_cons.mpr (.inl same)
      · exact .inr (List.mem_cons_of_mem _ inChanges)

end Record

end Retouch
