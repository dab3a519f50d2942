import FsImage.Python.Utf8

/-! The shell patterns of `find -path`: glibc's `fnmatch` with no flags.

Without `FNM_PATHNAME` a `/` is an ordinary byte, so `*` and `?` cross
directory boundaries, and without `FNM_NOESCAPE` a backslash quotes the byte
after it; a trailing backslash matches nothing. A bracket expression is read
off the pattern alone: its members and ranges, and whether a `]` closes it.
An unclosed `[` stands for itself, and a bracket cut short after `\` or `-`
never matches. Simplifications: the
`[:class:]`, `[=e=]` and `[.s.]` forms are not modelled, and ranges compare
bytes, as the C locale does.
-/

set_option autoImplicit false

namespace FsImage.Find

open FsImage.Python

/-- The byte of an ASCII character. -/
def ascii (c : Char) : UInt8 := UInt8.ofNat c.toNat

/-- The bytes `fnmatch` gives a meaning to outside a bracket. -/
def isMeta (b : UInt8) : Bool :=
  b = ascii '*' || b = ascii '?' || b = ascii '[' || b = ascii '\\'

/-- A member of a bracket expression. -/
inductive BracketItem where
  | single (b : UInt8)
  | range (lo hi : UInt8)
  deriving DecidableEq, Repr

def BracketItem.contains : BracketItem → UInt8 → Bool
  | .single c, b => b = c
  | .range lo hi, b => lo ≤ b && b ≤ hi

/-- A bracket expression as glibc's scan reads it. -/
inductive BracketParse where
  /-- Closed by `]`, with the pattern after it. -/
  | closed (items : List BracketItem) (rest : Bytes)
  /-- The pattern ended before a closing `]`. -/
  | unclosed
  /-- The pattern ended after a `\` or a `-` inside the bracket. -/
  | broken
  deriving DecidableEq, Repr

def BracketParse.cons (item : BracketItem) : BracketParse → BracketParse
  | .closed items rest => .closed (item :: items) rest
  | .unclosed => .unclosed
  | .broken => .broken

/-- Where glibc's scan of a bracket stands. -/
inductive ScanState where
  /-- A member is due; a `]` here is a member, as the first one is. -/
  | member
  /-- After a `\` where a member was due. -/
  | escaped
  /-- After a range: `]` closes, any other byte starts a member. -/
  | after
  /-- After the member `low`: a `-` may start a range. -/
  | single (low : UInt8)
  /-- After `low-`. -/
  | dash (low : UInt8)
  /-- After `low-\`. -/
  | dashEscaped (low : UInt8)
  deriving DecidableEq, Repr

/-- The scan of a bracket expression, one pattern byte at a time. -/
def scanBracket : ScanState → Bytes → BracketParse
  | .member, [] => .unclosed
  | .member, b :: rest => if b = ascii '\\' then scanBracket .escaped rest else scanBracket (.single b) rest
  | .escaped, [] => .broken
  | .escaped, e :: rest => scanBracket (.single e) rest
  | .after, [] => .unclosed
  | .after, b :: rest =>
    if b = ascii ']' then .closed [] rest
    else if b = ascii '\\' then scanBracket .escaped rest
    else scanBracket (.single b) rest
  | .single _, [] => .unclosed
  | .single low, b :: rest =>
    if b = ascii '-' then scanBracket (.dash low) rest
    else if b = ascii ']' then .closed [.single low] rest
    else if b = ascii '\\' then (scanBracket .escaped rest).cons (.single low)
    else (scanBracket (.single b) rest).cons (.single low)
  | .dash _, [] => .broken
  | .dash low, b :: rest =>
    if b = ascii ']' then .closed [.single low, .single (ascii '-')] rest
    else if b = ascii '\\' then scanBracket (.dashEscaped low) rest
    else (scanBracket .after rest).cons (.range low b)
  | .dashEscaped _, [] => .broken
  | .dashEscaped low, e :: rest => (scanBracket .after rest).cons (.range low e)

/-- One pattern item `c` of `fnmatch`, with `recurse` matching the rest. -/
def fnmatchStep (recurse : Bytes → Bytes → Bool) (c : UInt8) (pattern name : Bytes) : Bool :=
  if c = ascii '*' then name.tails.any (recurse pattern)
  else
    match name with
    | [] => false
    | b :: name =>
      if c = ascii '?' then recurse pattern name
      else if c = ascii '\\' then
        match pattern with
        | [] => false
        | e :: pattern => e = b && recurse pattern name
      else if c = ascii '[' then
        let negated := pattern.head? = some (ascii '!') || pattern.head? = some (ascii '^')
        match scanBracket .member (if negated then pattern.tail else pattern) with
        | .closed items rest => (items.any (·.contains b) != negated) && recurse rest name
        | .unclosed => b = ascii '[' && recurse pattern name
        | .broken => false
      else c = b && recurse pattern name

/-- `fnmatch(pattern, name, 0)`, allowed `fuel` pattern items. -/
def fnmatchFuel : Nat → Bytes → Bytes → Bool
  | 0, _, _ => false
  | _ + 1, [], name => name.isEmpty
  | fuel + 1, c :: pattern, name => fnmatchStep (fnmatchFuel fuel) c pattern name

/-- `fnmatch(pattern, name, 0) == 0`. Every item takes a pattern byte at
least, so one pass per byte and one for the end are enough. -/
def fnmatch (pattern name : Bytes) : Bool := fnmatchFuel (pattern.length + 1) pattern name

/-- A parse that, when closed, leaves fewer than `n` bytes. -/
def BracketParse.RestBelow (n : Nat) : BracketParse → Prop
  | .closed _ rest => rest.length < n
  | _ => True

@[simp] theorem BracketParse.restBelow_closed (n : Nat) (items : List BracketItem) (rest : Bytes) :
    (BracketParse.closed items rest).RestBelow n ↔ rest.length < n := Iff.rfl

@[simp] theorem BracketParse.restBelow_unclosed (n : Nat) : BracketParse.unclosed.RestBelow n := trivial

@[simp] theorem BracketParse.restBelow_broken (n : Nat) : BracketParse.broken.RestBelow n := trivial

@[simp] theorem BracketParse.restBelow_cons (n : Nat) (item : BracketItem) (parse : BracketParse) :
    (parse.cons item).RestBelow n ↔ parse.RestBelow n := by
  cases parse <;> rfl

/-- A closed bracket takes its `]` at least from the bytes scanned. -/
theorem scanBracket_restBelow (state : ScanState) (bytes : Bytes) :
    (scanBracket state bytes).RestBelow bytes.length := by
  induction bytes generalizing state with
  | nil => cases state <;> trivial
  | cons b tail ih =>
    have step : ∀ next, (scanBracket next tail).RestBelow (tail.length + 1) := fun next => by
      have below := ih next
      revert below
      cases scanBracket next tail <;> simp
      omega
    cases state <;> simp only [scanBracket] <;> (try split_ifs) <;> simp [step]

theorem scanBracket_closed_length (state : ScanState) (bytes : Bytes) (items : List BracketItem)
    (rest : Bytes) (closed : scanBracket state bytes = .closed items rest) : rest.length < bytes.length := by
  simpa [closed, BracketParse.RestBelow] using scanBracket_restBelow state bytes

/-- `fnmatchStep` reads `recurse` only on patterns no longer than the rest. -/
theorem fnmatchStep_congr (recurse other : Bytes → Bytes → Bool) (c : UInt8) (pattern : Bytes)
    (agree : ∀ shorter : Bytes, shorter.length ≤ pattern.length → recurse shorter = other shorter) :
    fnmatchStep recurse c pattern = fnmatchStep other c pattern := by
  funext name
  unfold fnmatchStep
  rw [agree pattern le_rfl]
  split
  · rfl
  cases name with
  | nil => rfl
  | cons b name =>
    simp only
    split
    · rfl
    split
    · cases pattern with
      | nil => rfl
      | cons e tail => simp only [agree tail (by simp)]
    split
    · split
      · next closed =>
        have shorter := scanBracket_closed_length _ _ _ _ closed
        have body : (if (pattern.head? = some (ascii '!') || pattern.head? = some (ascii '^')) = true
            then pattern.tail else pattern).length ≤ pattern.length := by split <;> simp
        rw [agree _ (by omega)]
      · rfl
      · rfl
    · rfl

theorem fnmatchFuel_enough (fuel : Nat) (pattern : Bytes) (enough : pattern.length < fuel) :
    fnmatchFuel fuel pattern = fnmatch pattern := by
  obtain ⟨n, size⟩ : ∃ n, pattern.length = n := ⟨_, rfl⟩
  induction n using Nat.strong_induction_on generalizing fuel pattern with
  | _ n ih =>
    obtain ⟨fuel, rfl⟩ : ∃ f, fuel = f + 1 := ⟨fuel - 1, by omega⟩
    cases pattern with
    | nil => rfl
    | cons c pattern =>
      simp only [List.length_cons] at size enough
      show fnmatchStep (fnmatchFuel fuel) c pattern = fnmatchStep (fnmatchFuel (pattern.length + 1)) c pattern
      refine fnmatchStep_congr _ _ c pattern fun shorter short => ?_
      rw [ih _ (by omega) fuel shorter (by omega) rfl, ih _ (by omega) _ shorter (by omega) rfl]

/-- `fnmatch` on a pattern that starts with the item `c`. -/
theorem fnmatch_cons (c : UInt8) (pattern : Bytes) :
    fnmatch (c :: pattern) = fnmatchStep fnmatch c pattern := by
  show fnmatchStep (fnmatchFuel (pattern.length + 1)) c pattern = _
  exact fnmatchStep_congr _ _ c pattern fun shorter short => fnmatchFuel_enough _ _ (by omega)

@[simp] theorem fnmatch_nil (name : Bytes) : fnmatch [] name = name.isEmpty := rfl

/-- An ordinary byte matches itself and nothing else. -/
theorem fnmatch_cons_of_not_meta (c : UInt8) (pattern name : Bytes) (plain : isMeta c = false) :
    fnmatch (c :: pattern) name =
      match name with
      | [] => false
      | b :: name => c = b && fnmatch pattern name := by
  simp only [isMeta, Bool.or_eq_false_iff, decide_eq_false_iff_not] at plain
  rw [fnmatch_cons]; unfold fnmatchStep
  cases name <;> simp [plain.1.1.1, plain.1.1.2, plain.1.2, plain.2]

/-- The encoding of a text without `*`, `?`, `[` and backslash is free of
the bytes `fnmatch` gives a meaning to. -/
theorem isMeta_utf8Encode (s : Str) (plain : ∀ c ∈ s, c ∉ ['*', '?', '[', '\\']) :
    ∀ b ∈ utf8Encode s, isMeta b = false := by
  simp only [utf8Encode, List.mem_flatMap]
  rintro b ⟨c, member, byte⟩
  have sameChar : ∀ d : Char, c.toNat = d.toNat → c = d := fun d same => by
    rw [← Char.ofNat_toNat c, same, Char.ofNat_toNat]
  have notMeta := plain c member
  simp only [List.mem_cons, List.not_mem_nil, or_false, not_or] at notMeta
  simp only [isMeta, ascii, Bool.or_eq_false_iff, decide_eq_false_iff_not]
  rcases utf8EncodeChar_bytes c b byte with same | high
  · refine ⟨⟨⟨?_, ?_⟩, ?_⟩, ?_⟩ <;> rintro rfl
    exacts [notMeta.1 (sameChar _ same.symm), notMeta.2.1 (sameChar _ same.symm),
      notMeta.2.2.1 (sameChar _ same.symm), notMeta.2.2.2 (sameChar _ same.symm)]
  · refine ⟨⟨⟨?_, ?_⟩, ?_⟩, ?_⟩ <;> rintro rfl <;> exact absurd high (by decide)

/-- A pattern with no `*`, `?`, `[` or backslash matches exactly itself. -/
theorem fnmatch_iff_eq_of_plain (pattern name : Bytes) (plain : ∀ b ∈ pattern, isMeta b = false) :
    fnmatch pattern name = true ↔ name = pattern := by
  induction pattern generalizing name with
  | nil => cases name <;> simp
  | cons c pattern ih =>
    rw [fnmatch_cons_of_not_meta c pattern name (plain c (by simp))]
    cases name with
    | nil => simp
    | cons b name =>
      simp only [Bool.and_eq_true, decide_eq_true_eq, List.cons.injEq,
        ih name fun x member => plain x (List.mem_cons_of_mem c member)]
      exact ⟨fun ⟨same, rest⟩ => ⟨same.symm, rest⟩, fun ⟨same, rest⟩ => ⟨same.symm, rest⟩⟩

end FsImage.Find
