import Mathlib.Data.List.Basic

/-! Python text values as the modelled code sees them.

A `str` is a list of characters and a `bytes` value a list of octets. Only the
methods that the modelled functions call are given, each next to the lemmas
that later proofs cite instead of unfolding it.
-/

set_option autoImplicit false

namespace FsImage.Python

/-- A Python `str`. -/
abbrev Str := List Char

/-- A Python `bytes` value. -/
abbrev Bytes := List UInt8

/-- The exceptions the modelled code can raise, by Python class. -/
inductive PyExc where
  | assertionError
  | keyError
  | typeError
  | valueError
  | fileExistsError
  | fileNotFoundError
  | sameFileError
  | isADirectoryError
  /-- `OSError`, here for too many levels of symbolic links. -/
  | osError
  | unicodeDecodeError
  | calledProcessError
  deriving DecidableEq, Repr

/-- A Python computation that returns a value or raises. -/
abbrev Py (α : Type) := Except PyExc α

/-- Equality of outcomes is decidable, so that a run on fixed inputs can be
checked by `decide`. -/
instance Py.instDecidableEq {α : Type} [DecidableEq α] : DecidableEq (Py α)
  | .ok a, .ok b => if same : a = b then isTrue (same ▸ rfl) else isFalse fun h => same (by cases h; rfl)
  | .error a, .error b => if same : a = b then isTrue (same ▸ rfl) else isFalse fun h => same (by cases h; rfl)
  | .ok _, .error _ => isFalse fun h => by cases h
  | .error _, .ok _ => isFalse fun h => by cases h

@[simp] theorem Py.pure_eq {α : Type} (a : α) : (pure a : Py α) = .ok a := rfl

@[simp] theorem Py.ok_bind {α β : Type} (a : α) (f : α → Py β) : (Except.ok a >>= f : Py β) = f a := rfl

@[simp] theorem Py.error_bind {α β : Type} (e : PyExc) (f : α → Py β) :
    (Except.error e >>= f : Py β) = .error e := rfl

theorem Py.bind_eq_ok {α β : Type} (x : Py α) (f : α → Py β) (b : β) :
    x >>= f = .ok b ↔ ∃ a, x = .ok a ∧ f a = .ok b := by
  cases x <;> simp

theorem Py.map_eq_ok {α β : Type} (f : α → β) (x : Py α) (b : β) :
    x.map f = .ok b ↔ ∃ a, x = .ok a ∧ f a = b := by
  cases x <;> simp [Except.map]

/-- A property that every successful step keeps holds after a loop that
completes. -/
theorem Py.foldlM_invariant {α β : Type} (P : α → Prop) (f : α → β → Py α)
    (step : ∀ a b a', P a → f a b = .ok a' → P a') (xs : List β) (a r : α) (start : P a)
    (ran : xs.foldlM f a = .ok r) : P r := by
  induction xs generalizing a with
  | nil => cases ran; exact start
  | cons b rest ih =>
    obtain ⟨a', first, later⟩ := (Py.bind_eq_ok _ _ _).1 ran
    exact ih a' (step a b a' start first) later

/-- What a generator did when run to its end: the values it yielded, in
order, and the exception it stopped with, if any. -/
structure GenRun (α : Type) where
  yielded : List α
  raised : Option PyExc
  deriving DecidableEq, Repr

/-- `s.startswith(p)`. -/
def startswith (s p : Str) : Bool := p.isPrefixOf s

theorem startswith_iff (s p : Str) : startswith s p = true ↔ p <+: s :=
  List.isPrefixOf_iff_prefix

/-- `s.lstrip(c)` for a single character. -/
def lstrip (c : Char) (s : Str) : Str := s.dropWhile (· == c)

/-- `s.rstrip(c)` for a single character. -/
def rstrip (c : Char) (s : Str) : Str := (s.reverse.dropWhile (· == c)).reverse

@[simp] theorem lstrip_nil (c : Char) : lstrip c [] = [] := rfl

theorem lstrip_of_head_ne (c x : Char) (s : Str) (other : x ≠ c) : lstrip c (x :: s) = x :: s := by
  simp [lstrip, other]

theorem lstrip_replicate_append (c : Char) (n : Nat) (s : Str) :
    lstrip c (List.replicate n c ++ s) = lstrip c s := by
  induction n with
  | zero => rfl
  | succ n ih => simp [lstrip, List.replicate_succ] at ih ⊢

theorem rstrip_append_of_ne (c x : Char) (s : Str) (other : x ≠ c) :
    rstrip c (s ++ [x]) = s ++ [x] := by
  simp [rstrip, other]

/-! ## `split` and `join`, on `str` and on `bytes` alike -/

section SplitJoin

variable {α : Type}

/-- `s.split(c)`, empty pieces kept, written to return the first piece apart. -/
def splitAux [DecidableEq α] (c : α) : List α → List α × List (List α)
  | [] => ([], [])
  | x :: rest =>
    let (piece, pieces) := splitAux c rest
    if x = c then ([], piece :: pieces) else (x :: piece, pieces)

/-- `s.split(c)`. -/
def split [DecidableEq α] (c : α) (s : List α) : List (List α) := (splitAux c s).1 :: (splitAux c s).2

/-- `c.join(parts)`. -/
def join (c : α) : List (List α) → List α
  | [] => []
  | [part] => part
  | part :: next :: rest => part ++ c :: join c (next :: rest)

theorem splitAux_of_not_mem [DecidableEq α] (c : α) (s : List α) (absent : c ∉ s) : splitAux c s = (s, []) := by
  induction s with
  | nil => rfl
  | cons x rest ih =>
    have hx : x ≠ c := fun same => absent (same ▸ List.mem_cons_self x rest)
    simp [splitAux, ih (fun member => absent (List.mem_cons_of_mem x member)), hx]

theorem splitAux_append [DecidableEq α] (c : α) (a b : List α) (absent : c ∉ a) :
    splitAux c (a ++ c :: b) = (a, (splitAux c b).1 :: (splitAux c b).2) := by
  induction a with
  | nil => simp [splitAux]
  | cons x rest ih =>
    have hx : x ≠ c := fun same => absent (same ▸ List.mem_cons_self x rest)
    simp [splitAux, ih (fun member => absent (List.mem_cons_of_mem x member)), hx]

theorem split_of_not_mem [DecidableEq α] (c : α) (s : List α) (absent : c ∉ s) : split c s = [s] := by
  simp [split, splitAux_of_not_mem c s absent]

theorem split_append [DecidableEq α] (c : α) (a b : List α) (absent : c ∉ a) :
    split c (a ++ c :: b) = a :: split c b := by
  simp [split, splitAux_append c a b absent]

theorem split_cons_self [DecidableEq α] (c : α) (s : List α) : split c (c :: s) = [] :: split c s :=
  split_append c [] s (List.not_mem_nil c)

theorem splitAux_free [DecidableEq α] (c : α) (s : List α) :
    c ∉ (splitAux c s).1 ∧ ∀ piece ∈ (splitAux c s).2, c ∉ piece := by
  induction s with
  | nil => simp [splitAux]
  | cons x rest ih =>
    obtain ⟨first, others⟩ := ih
    by_cases same : x = c
    · simp only [splitAux, same, if_true]
      exact ⟨List.not_mem_nil c, fun piece member => by
        rcases List.mem_cons.mp member with rfl | member
        · exact first
        · exact others piece member⟩
    · simp only [splitAux, same, if_false]
      exact ⟨fun member => by
        rcases List.mem_cons.mp member with rfl | member
        · exact same rfl
        · exact first member, others⟩

/-- No piece of a split holds the separator. -/
theorem not_mem_of_mem_split [DecidableEq α] (c : α) (s piece : List α) (member : piece ∈ split c s) : c ∉ piece := by
  rcases List.mem_cons.mp member with rfl | member
  · exact (splitAux_free c s).1
  · exact (splitAux_free c s).2 piece member

/-- Splitting pieces each ended by the separator, then more, gives the pieces
and then the split of what follows. -/
theorem split_flatten_terminated_append [DecidableEq α] (c : α) (pieces : List (List α)) (rest : List α)
    (free : ∀ piece ∈ pieces, c ∉ piece) :
    split c ((pieces.map (· ++ [c])).flatten ++ rest) = pieces ++ split c rest := by
  induction pieces with
  | nil => rfl
  | cons piece more ih =>
    rw [List.map_cons, List.flatten_cons, List.append_assoc, List.append_assoc, List.singleton_append,
      split_append c piece _ (free piece (by simp)), ih fun p member => free p (List.mem_cons_of_mem _ member)]
    rfl

/-- Splitting pieces each ended by the separator gives the pieces and an
empty last piece. -/
theorem split_flatten_terminated [DecidableEq α] (c : α) (pieces : List (List α))
    (free : ∀ piece ∈ pieces, c ∉ piece) :
    split c (pieces.map (· ++ [c])).flatten = pieces ++ [[]] := by
  simpa using split_flatten_terminated_append c pieces [] free

/-- Splitting a join of pieces free of the separator gives the pieces back. -/
theorem split_join [DecidableEq α] (c : α) (parts : List (List α)) (nonempty : parts ≠ [])
    (free : ∀ part ∈ parts, c ∉ part) : split c (join c parts) = parts := by
  induction parts with
  | nil => exact absurd rfl nonempty
  | cons part rest ih =>
    cases rest with
    | nil => simpa [join] using split_of_not_mem c part (free part (by simp))
    | cons next tail =>
      rw [join, split_append c part _ (free part (by simp)),
        ih (by simp) (fun p member => free p (List.mem_cons_of_mem part member))]

@[simp] theorem join_nil (c : α) : join c [] = [] := rfl

@[simp] theorem join_singleton (c : α) (part : List α) : join c [part] = part := rfl

theorem join_cons_cons (c : α) (part next : List α) (rest : List (List α)) :
    join c (part :: next :: rest) = part ++ c :: join c (next :: rest) := rfl

theorem join_append_singleton (c : α) (parts : List (List α)) (last : List α) (nonempty : parts ≠ []) :
    join c (parts ++ [last]) = join c parts ++ c :: last := by
  induction parts with
  | nil => exact absurd rfl nonempty
  | cons part rest ih =>
    cases rest with
    | nil => rfl
    | cons next tail => simp [join_cons_cons, ← ih (by simp)]

theorem join_append (c : α) (parts more : List (List α)) (nonempty : parts ≠ []) (moreNonempty : more ≠ []) :
    join c (parts ++ more) = join c parts ++ c :: join c more := by
  induction parts with
  | nil => exact absurd rfl nonempty
  | cons part rest ih =>
    cases rest with
    | nil =>
      obtain ⟨next, tail, rfl⟩ := List.exists_cons_of_ne_nil moreNonempty
      rfl
    | cons next tail =>
      rw [List.cons_append, List.cons_append, join_cons_cons, ← List.cons_append, ih (by simp)]
      simp [join_cons_cons]

/-- `k` pieces joined take at least `k - 1` characters, their separators. -/
theorem length_le_length_join (c : α) (parts : List (List α)) : parts.length ≤ (join c parts).length + 1 := by
  induction parts with
  | nil => simp
  | cons part rest ih =>
    cases rest with
    | nil => simp
    | cons next tail => simp only [join_cons_cons, List.length_append, List.length_cons] at ih ⊢; omega

/-- A character of a join is the separator or a character of a piece. -/
theorem mem_join (c x : α) (parts : List (List α)) (member : x ∈ join c parts) : x = c ∨ ∃ p ∈ parts, x ∈ p := by
  induction parts with
  | nil => cases member
  | cons part rest ih =>
    cases rest with
    | nil => exact .inr ⟨part, by simp, by simpa using member⟩
    | cons next tail =>
      rw [join_cons_cons] at member
      rcases List.mem_append.mp member with inPart | inRest
      · exact .inr ⟨part, by simp, inPart⟩
      rcases List.mem_cons.mp inRest with isSep | inRest
      · exact .inl isSep
      rcases ih inRest with isSep | ⟨p, pMember, inP⟩
      · exact .inl isSep
      · exact .inr ⟨p, List.mem_cons_of_mem part pMember, inP⟩

/-- A join with one more separator at its end is the pieces each ended by
the separator. -/
theorem join_append_sep (c : α) (parts : List (List α)) (nonempty : parts ≠ []) :
    join c parts ++ [c] = (parts.map (· ++ [c])).flatten := by
  induction parts with
  | nil => exact absurd rfl nonempty
  | cons part rest ih =>
    cases rest with
    | nil => simp
    | cons next tail =>
      rw [join_cons_cons, List.append_assoc, List.cons_append, ih (by simp)]
      simp

/-- Two texts each cut by a first separator: one is a prefix of the other
exactly when their first pieces agree and the rests are prefixes. -/
theorem terminated_prefix_iff [DecidableEq α] (c : α) (x y more other : List α) (xFree : c ∉ x) (yFree : c ∉ y) :
    x ++ c :: more <+: y ++ c :: other ↔ x = y ∧ more <+: other := by
  induction x generalizing y with
  | nil =>
    cases y with
    | nil => simp
    | cons b y =>
      have : c ≠ b := fun same => yFree (same ▸ List.mem_cons_self b y)
      simp [this]
  | cons a x ih =>
    have : a ≠ c := fun same => xFree (same ▸ List.mem_cons_self a x)
    cases y with
    | nil => simp [this]
    | cons b y =>
      simp only [List.cons_append, List.cons_prefix_cons, List.cons.injEq, and_assoc]
      rw [ih y (fun member => xFree (List.mem_cons_of_mem a member)) (fun member => yFree (List.mem_cons_of_mem b member))]

theorem flatten_terminated_prefix_iff [DecidableEq α] (c : α) (xs ys : List (List α))
    (xsFree : ∀ p ∈ xs, c ∉ p) (ysFree : ∀ p ∈ ys, c ∉ p) :
    (xs.map (· ++ [c])).flatten <+: (ys.map (· ++ [c])).flatten ↔ xs <+: ys := by
  induction xs generalizing ys with
  | nil => simp
  | cons x xs ih =>
    cases ys with
    | nil => simp
    | cons y ys =>
      simp only [List.map_cons, List.flatten_cons, List.append_assoc, List.singleton_append, List.cons_prefix_cons]
      rw [terminated_prefix_iff c x y _ _ (xsFree x (by simp)) (ysFree y (by simp)),
        ih ys (fun p member => xsFree p (List.mem_cons_of_mem x member))
          (fun p member => ysFree p (List.mem_cons_of_mem y member))]

/-- `a/b/` is a prefix of `c/d/e/` exactly when the pieces of the first are
the first pieces of the second. -/
theorem join_sep_prefix_iff [DecidableEq α] (c : α) (xs ys : List (List α)) (xsNonempty : xs ≠ [])
    (ysNonempty : ys ≠ []) (xsFree : ∀ p ∈ xs, c ∉ p) (ysFree : ∀ p ∈ ys, c ∉ p) :
    join c xs ++ [c] <+: join c ys ++ [c] ↔ xs <+: ys := by
  rw [join_append_sep c xs xsNonempty, join_append_sep c ys ysNonempty, flatten_terminated_prefix_iff c xs ys xsFree ysFree]

end SplitJoin

/-- `s.split(c, 1)` unpacked into two names: `none` where the unpacking raises. -/
def splitOnce (c : Char) : Str → Option (Str × Str)
  | [] => none
  | x :: rest =>
    if x = c then some ([], rest) else (splitOnce c rest).map fun found => (x :: found.1, found.2)

theorem splitOnce_append (c : Char) (a b : Str) (absent : c ∉ a) :
    splitOnce c (a ++ c :: b) = some (a, b) := by
  induction a with
  | nil => simp [splitOnce]
  | cons x rest ih =>
    have hx : x ≠ c := fun same => absent (same ▸ List.mem_cons_self x rest)
    simp [splitOnce, ih (fun member => absent (List.mem_cons_of_mem x member)), hx]

theorem splitOnce_of_not_mem (c : Char) (s : Str) (absent : c ∉ s) : splitOnce c s = none := by
  induction s with
  | nil => rfl
  | cons x rest ih =>
    have hx : x ≠ c := fun same => absent (same ▸ List.mem_cons_self x rest)
    simp [splitOnce, ih (fun member => absent (List.mem_cons_of_mem x member)), hx]

end FsImage.Python
