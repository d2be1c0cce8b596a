/-!
# Association lists

Keys with their values, in the order in which the keys first came.  `put`
gives a key a value where the key stands, or at the end if it is new; `find?`
takes the first occurrence of a key.
-/

namespace ReversePolish
namespace Association

universe u v

variable {κ : Type u} {ν : Type v} [DecidableEq κ]

/-- The value of a key. -/
def find? (key : κ) : List (κ × ν) → Option ν
  | [] => none
  | (k, value) :: rest => if k = key then some value else find? key rest

/-- Gives a key a value, in place if the key occurs and at the end otherwise. -/
def put (key : κ) (value : ν) : List (κ × ν) → List (κ × ν)
  | [] => [(key, value)]
  | (k, v) :: rest => if k = key then (key, value) :: rest else (k, v) :: put key value rest

/-- Takes a key out. -/
def erase (key : κ) (l : List (κ × ν)) : List (κ × ν) :=
  l.filter fun (k, _) => k ≠ key

@[simp] theorem find?_put_self
    (key : κ) (value : ν) (l : List (κ × ν)) :
    find? key (put key value l) = some value := by
  induction l with
  | nil => simp [put, find?]
  | cons entry rest ih =>
      by_cases h : entry.1 = key
      · simp [put, find?, h]
      · simp [put, find?, h, ih]

theorem find?_put_of_ne
    {key other : κ} (value : ν) (l : List (κ × ν))
    (h : other ≠ key) :
    find? other (put key value l) = find? other l := by
  induction l with
  | nil => simp [put, find?, Ne.symm h]
  | cons entry rest ih =>
      by_cases hk : entry.1 = key
      · simp [put, find?, hk, Ne.symm h]
      · simp [put, find?, hk, ih]

@[simp] theorem find?_erase_self
    (key : κ) (l : List (κ × ν)) :
    find? key (erase key l) = none := by
  induction l with
  | nil => rfl
  | cons entry rest ih =>
      by_cases h : entry.1 = key
      · simpa [erase, List.filter_cons, h] using ih
      · simpa [erase, List.filter_cons, h, find?] using ih

theorem find?_erase_of_ne
    {key other : κ} (l : List (κ × ν))
    (h : other ≠ key) :
    find? other (erase key l) = find? other l := by
  induction l with
  | nil => rfl
  | cons entry rest ih =>
      by_cases hk : entry.1 = key
      · simpa [erase, List.filter_cons, hk, find?, Ne.symm h] using ih
      · by_cases ho : entry.1 = other
        · simp [erase, find?, ho, h]
        · simpa [erase, List.filter_cons, hk, find?, ho] using ih

/-- A new key that is taken out again leaves no trace. -/
theorem erase_put_of_find?_eq_none
    {key : κ} (value : ν) (l : List (κ × ν))
    (h : find? key l = none) :
    erase key (put key value l) = l := by
  induction l with
  | nil => simp [put, erase]
  | cons entry rest ih =>
      by_cases hk : entry.1 = key
      · simp [find?, hk] at h
      · simp only [find?, hk, if_false] at h
        simpa [put, erase, List.filter_cons, hk] using ih h

end Association
end ReversePolish
