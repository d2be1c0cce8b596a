import ReversePolish.Proofs.Disk.Saving

/-!
# Ways that lead nowhere

A path is followed up to the first part at which that is refused.  The place
before this part is missing, or is a file, or the part is longer than a name
may be.

Where something is missing or is a file, a disk can say that nothing stands at
the end of the path.  It cannot say so of a path that is too long, as a whole
or in one of its names.

A path that holds the character NUL is refused for that, whatever the disk is.
No other path is, not even one whose temporary file is to be made.
-/

namespace ReversePolish

namespace Disk

/-- Why a part of a path leads nowhere from a place. -/
inductive Refuses (d : Disk) (place : Location) (part : Text) : Error → Prop
  | noEntry
      (h : d.entryAt? place = none) : Refuses d place part .noEntry
  | notFolder {content : List UInt8}
      (h : d.entryAt? place = some (.file content)) : Refuses d place part .notFolder
  | nameTooLong
      (hfolder : d.entryAt? place = some .folder)
      (hname : nameLimit < Text.Utf8.size part) : Refuses d place part .nameTooLong

section Following

variable {d : Disk} {place reached : Location} {part : Text} {e : Error}

theorem follow_singleton_eq_ok_iff :
    d.follow place [part] = .ok reached ↔
      d.entryAt? place = some .folder ∧ Text.Utf8.size part ≤ nameLimit ∧
        reached = next place part := by
  rw [follow]
  split
  · rename_i hplace
    simp [hplace]
  · rename_i hplace
    simp [hplace]
  · rename_i hplace
    by_cases hname : nameLimit < Text.Utf8.size part
    · simp [hname, Nat.not_le.2 hname]
    · simp [hplace, hname, Nat.not_lt.1 hname, follow, eq_comm]

theorem follow_singleton_eq_error_iff :
    d.follow place [part] = .error e ↔ d.Refuses place part e := by
  constructor
  · intro h
    rw [follow] at h
    split at h
    · cases h
      exact .noEntry ‹_›
    · cases h
      exact .notFolder ‹_›
    · split at h
      · cases h
        exact .nameTooLong ‹_› ‹_›
      · cases h
  · intro h
    cases h with
    | noEntry h => simp only [follow, h]
    | notFolder h => simp only [follow, h]
    | nameTooLong hfolder hname => simp only [follow, hfolder, if_pos hname]

/-- A path is followed one part after the other. -/
theorem follow_cons
    (d : Disk) (place : Location) (part : Text) (rest : List Text) :
    d.follow place (part :: rest) =
      d.follow place [part] >>= fun reached => d.follow reached rest := by
  simp only [follow]
  split
  · rfl
  · rfl
  · split <;> rfl

theorem follow_append
    (d : Disk) (place : Location) (before after : List Text) :
    d.follow place (before ++ after) =
      d.follow place before >>= fun reached => d.follow reached after := by
  induction before generalizing place with
  | nil => rfl
  | cons part rest ih =>
      rw [List.cons_append, follow_cons, follow_cons _ _ _ rest, bind_assoc]
      exact congrArg _ (funext ih)

/-- **Following parts is refused at the first part that leads nowhere.** -/
theorem follow_eq_error_iff
    {parts : List Text} :
    d.follow place parts = .error e ↔
      ∃ before part after reached, parts = before ++ part :: after ∧
        d.follow place before = .ok reached ∧ d.Refuses reached part e := by
  constructor
  · intro h
    induction parts generalizing place with
    | nil => cases h
    | cons part rest ih =>
        rw [follow_cons] at h
        rcases Outcome.bind_eq_error.1 h with hpart | ⟨found, hpart, hrest⟩
        · exact ⟨[], part, rest, place, rfl, rfl, follow_singleton_eq_error_iff.1 hpart⟩
        · obtain ⟨before, other, after, reached, rfl, hbefore, hother⟩ := ih hrest
          refine ⟨part :: before, other, after, reached, rfl, ?_, hother⟩
          rw [follow_cons]
          exact Outcome.bind_eq_ok.2 ⟨found, hpart, hbefore⟩
  · rintro ⟨before, part, after, reached, rfl, hbefore, hpart⟩
    rw [follow_append]
    refine Outcome.bind_eq_error.2 (Or.inr ⟨reached, hbefore, ?_⟩)
    rw [follow_cons]
    exact Outcome.bind_eq_error.2 (Or.inl (follow_singleton_eq_error_iff.2 hpart))

end Following

/-! ### Paths that are too long -/

/-- A path is longer than a disk can take, or leads to a folder and on to a name which is. -/
inductive IsTooLong (d : Disk) (p : Path) : Prop
  | path (h : pathLimit < Text.Utf8.size p.toText)
  | name {before after : List Text} {part : Text} {place : Location}
      (hparts : p.parts = before ++ part :: after)
      (hbefore : d.follow (d.start p) before = .ok place)
      (hfolder : d.entryAt? place = some .folder)
      (hname : nameLimit < Text.Utf8.size part)

variable {d : Disk} {p : Path} {e : Error}

theorem walk_eq_error_cases
    (h : d.walk p = .error e) :
    e = .noEntry ∨ e = .notFolder ∨ (e = .nameTooLong ∧ d.IsTooLong p) := by
  rw [walk] at h
  split at h
  · rename_i hpath
    cases h
    exact Or.inr (Or.inr ⟨rfl, .path hpath⟩)
  · obtain ⟨before, part, after, place, hparts, hbefore, hpart⟩ := follow_eq_error_iff.1 h
    cases hpart with
    | noEntry => exact Or.inl rfl
    | notFolder => exact Or.inr (Or.inl rfl)
    | nameTooLong hfolder hname => exact Or.inr (Or.inr ⟨rfl, .name hparts hbefore hfolder hname⟩)

theorem IsTooLong.walk_eq
    (h : d.IsTooLong p) :
    d.walk p = .error .nameTooLong := by
  rw [walk]
  split
  · rfl
  · rename_i hpath
    cases h with
    | path h => exact absurd h hpath
    | name hparts hbefore hfolder hname =>
        exact follow_eq_error_iff.2 ⟨_, _, _, _, hparts, hbefore, .nameTooLong hfolder hname⟩

/-! ### Paths that hold the character NUL -/

theorem flatten_pieces
    (t : Text) :
    (Path.pieces t).flatten = t.filter (· ≠ '/') := by
  induction t with
  | nil => rfl
  | cons c rest ih =>
      rw [Path.pieces]
      split
      · rename_i hc
        simp [hc, ih]
      · rename_i hc
        have hkept : (c :: rest).filter (· ≠ '/') = c :: rest.filter (· ≠ '/') :=
          List.filter_cons_of_pos (by simpa using hc)
        rw [hkept, ← ih]
        cases Path.pieces rest <;> rfl

/-- A path holds a NUL where its text does: what is dropped between the slashes holds none. -/
theorem holdsNul_ofText_iff
    {t : Text} :
    (Path.ofText t).HoldsNul ↔ '\x00' ∈ t := by
  have hpieces : (∃ part ∈ Path.pieces t, '\x00' ∈ part) ↔ '\x00' ∈ t := by
    rw [← List.mem_flatten, flatten_pieces]
    simp
  rw [← hpieces]
  refine exists_congr fun part => ?_
  rw [Path.ofText, List.mem_filter, decide_eq_true_eq]
  refine ⟨fun h => ⟨h.1.1, h.2⟩, fun h => ⟨⟨h.1, ?_, ?_⟩, h.2⟩⟩ <;>
    · rintro rfl
      exact absurd h.2 (by decide)

theorem find_of_holdsNul
    (d : Disk)
    (h : p.HoldsNul) :
    d.find p = .error .nulInPath :=
  Outcome.bind_eq_error.2 (Or.inl (reach_of_holdsNul d h))

theorem read_of_holdsNul
    (d : Disk)
    (h : p.HoldsNul) :
    d.read p = .error .nulInPath :=
  Outcome.bind_eq_error.2 (Or.inl (find_of_holdsNul d h))

theorem removing_of_holdsNul
    (d : Disk)
    (h : p.HoldsNul) :
    d.removing p = ⟨[], some .nulInPath⟩ := by
  have hremovable : d.removable p = .error .nulInPath :=
    Outcome.bind_eq_error.2 (Or.inl (reach_of_holdsNul d h))
  rw [removing, hremovable]

theorem walk_ne_nulInPath :
    d.walk p ≠ .error .nulInPath := by
  intro hwalk
  rcases walk_eq_error_cases hwalk with he | he | ⟨he, -⟩ <;> cases he

/-- Any other path is looked at. -/
theorem reach_ne_nulInPath
    (h : ¬ p.HoldsNul) :
    d.reach p ≠ .error .nulInPath := by
  rw [reach_of_not_holdsNul d h]
  exact walk_ne_nulInPath

theorem find_ne_nulInPath
    (h : ¬ p.HoldsNul) :
    d.find p ≠ .error .nulInPath :=
  Outcome.bind_ne_error (reach_ne_nulInPath h) fun place hentry => by
    split at hentry <;> cases hentry

theorem read_ne_nulInPath
    (h : ¬ p.HoldsNul) :
    d.read p ≠ .error .nulInPath :=
  Outcome.bind_ne_error (find_ne_nulInPath h) fun entry hentry => by
    cases entry <;> cases hentry

theorem removable_ne_nulInPath
    (h : ¬ p.HoldsNul) :
    d.removable p ≠ .error .nulInPath :=
  Outcome.bind_ne_error (reach_ne_nulInPath h) fun place hentry => by
    split at hentry
    · split at hentry <;> cases hentry
    · cases hentry

theorem replaceable_ne_nulInPath
    (h : ¬ p.HoldsNul) :
    d.replaceable p ≠ .error .nulInPath :=
  Outcome.bind_ne_error (reach_ne_nulInPath h) fun place hentry => by
    split at hentry
    · split at hentry <;> cases hentry
    · cases hentry

theorem creatable_ne_nulInPath
    {n : Nat}
    (h : ¬ p.HoldsNul) :
    d.creatable p n ≠ .error .nulInPath := by
  have hnul : ¬ (workedOut p).HoldsNul := fun hworkedOut => h (holdsNul_of_workedOut hworkedOut)
  rw [creatable, if_neg hnul]
  refine Outcome.bind_ne_error walk_ne_nulInPath fun place hentry => ?_
  split at hentry <;> cases hentry

theorem error?_removing_ne_nulInPath
    (h : ¬ p.HoldsNul) :
    (d.removing p).error? ≠ some .nulInPath := by
  intro herror
  rw [removing] at herror
  split at herror
  · rename_i e hremovable
    cases herror
    exact removable_ne_nulInPath h hremovable
  · cases herror

/-- A save is refused for a NUL only if its path holds one. -/
theorem error?_saving_ne_nulInPath
    {n : Nat}
    (h : ¬ p.HoldsNul)
    (content : List UInt8) :
    (d.saving p n content).error? ≠ some .nulInPath := by
  intro herror
  rw [saving] at herror
  split at herror
  · rename_i e hcreatable
    cases herror
    exact creatable_ne_nulInPath h hcreatable
  · split at herror
    · rename_i e hreplaceable
      cases herror
      exact replaceable_ne_nulInPath h hreplaceable
    · cases herror

/-! ### What a disk cannot say -/

theorem find_eq_error_cases
    (h : d.find p = .error e) :
    e = .noEntry ∨ e = .notFolder ∨ (e = .nulInPath ∧ p.HoldsNul) ∨
      (e = .nameTooLong ∧ ¬ p.HoldsNul ∧ d.IsTooLong p) := by
  by_cases hnul : p.HoldsNul
  · rw [find_of_holdsNul d hnul] at h
    cases h
    exact Or.inr (Or.inr (Or.inl ⟨rfl, hnul⟩))
  · rcases Outcome.bind_eq_error.1 h with hreach | ⟨place, -, hentry⟩
    · rw [reach_of_not_holdsNul d hnul] at hreach
      rcases walk_eq_error_cases hreach with he | he | ⟨he, hlong⟩
      · exact Or.inl he
      · exact Or.inr (Or.inl he)
      · exact Or.inr (Or.inr (Or.inr ⟨he, hnul, hlong⟩))
    · split at hentry
      · cases hentry
        exact Or.inl rfl
      · cases hentry

theorem IsTooLong.reach_eq
    (h : d.IsTooLong p)
    (hnul : ¬ p.HoldsNul) :
    d.reach p = .error .nameTooLong :=
  (reach_of_not_holdsNul d hnul).trans h.walk_eq

theorem IsTooLong.find_eq
    (h : d.IsTooLong p)
    (hnul : ¬ p.HoldsNul) :
    d.find p = .error .nameTooLong :=
  Outcome.bind_eq_error.2 (Or.inl (h.reach_eq hnul))

theorem IsTooLong.removable_eq
    (h : d.IsTooLong p)
    (hnul : ¬ p.HoldsNul) :
    d.removable p = .error .nameTooLong :=
  Outcome.bind_eq_error.2 (Or.inl (h.reach_eq hnul))

/-- **A disk says whether anything stands at the end of a path unless the path is too long.**  At
the end of one that holds a NUL there is nothing. -/
theorem isPresent_eq_error_iff :
    d.isPresent p = .error e ↔ e = .nameTooLong ∧ ¬ p.HoldsNul ∧ d.IsTooLong p := by
  constructor
  · intro h
    rw [isPresent] at h
    split at h
    · cases h
    · cases h
    · cases h
    · cases h
    · rename_i found hnoEntry hnotFolder hnulInPath hfind
      cases h
      rcases find_eq_error_cases hfind with rfl | rfl | ⟨rfl, -⟩ | htooLong
      · exact absurd rfl hnoEntry
      · exact absurd rfl hnotFolder
      · exact absurd rfl hnulInPath
      · exact htooLong
  · rintro ⟨rfl, hnul, h⟩
    rw [isPresent, h.find_eq hnul]

end Disk

end ReversePolish
