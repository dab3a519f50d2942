import FsImage.Python.Text
import Mathlib.Data.List.Nodup

/-! Python dictionaries in insertion order.

A `dict` is a list of entries whose keys are pairwise distinct; the
distinctness is a field, so no operation can build a dictionary with a key
twice. Lookup is by key; `pop` and `del` raise `KeyError` on a missing key.
-/

set_option autoImplicit false

namespace FsImage.Python

/-- A Python `dict`: entries in insertion order, each key at most once. -/
structure Dict (κ ν : Type) where
  items : List (κ × ν)
  nodup : (items.map Prod.fst).Nodup

namespace Dict

variable {κ ν : Type}

/-- `{}`. -/
def empty : Dict κ ν := ⟨[], List.nodup_nil⟩

/-- `list(d.keys())`. -/
def keys (d : Dict κ ν) : List κ := d.items.map Prod.fst

/-- The entries whose key satisfies `keep`, in their order. -/
def filterKeys (d : Dict κ ν) (keep : κ → Bool) : Dict κ ν :=
  ⟨d.items.filter (fun entry => keep entry.1),
    d.nodup.sublist ((List.filter_sublist _).map Prod.fst)⟩

@[simp] theorem keys_filterKeys (d : Dict κ ν) (keep : κ → Bool) :
    (d.filterKeys keep).keys = d.keys.filter keep := by
  simp [keys, filterKeys, List.filter_map, Function.comp_def]

theorem filterKeys_filterKeys (d : Dict κ ν) (first second : κ → Bool) :
    (d.filterKeys first).filterKeys second = d.filterKeys (fun k => first k && second k) := by
  simp [filterKeys, List.filter_filter, Bool.and_comm]

theorem filterKeys_of_all (d : Dict κ ν) (keep : κ → Bool) (kept : ∀ k ∈ d.keys, keep k = true) :
    d.filterKeys keep = d := by
  cases d with
  | mk items nodup =>
    simp only [filterKeys, mk.injEq]
    exact List.filter_eq_self.mpr (fun entry member => kept entry.1 (List.mem_map_of_mem _ member))

theorem filterKeys_congr (d : Dict κ ν) (first second : κ → Bool)
    (agree : ∀ k ∈ d.keys, first k = second k) : d.filterKeys first = d.filterKeys second := by
  simp only [filterKeys, mk.injEq]
  exact List.filter_congr (fun entry member => agree entry.1 (List.mem_map_of_mem _ member))

/-- `d.get(k)`. -/
def get? [BEq κ] (d : Dict κ ν) (k : κ) : Option ν := d.items.lookup k

theorem get?_filterKeys [BEq κ] [LawfulBEq κ] (d : Dict κ ν) (keep : κ → Bool) (k : κ) :
    (d.filterKeys keep).get? k = if keep k then d.get? k else none := by
  cases d with
  | mk items nodup =>
    simp only [get?, filterKeys]
    clear nodup
    induction items with
    | nil => simp
    | cons entry rest ih =>
      obtain ⟨key, value⟩ := entry
      by_cases same : key = k
      · subst same
        by_cases kept : keep key <;> simp [List.filter_cons, List.lookup_cons, kept, ih]
      · have differ : (k == key) = false := beq_false_of_ne (Ne.symm same)
        by_cases kept : keep key <;> simp [List.filter_cons, List.lookup_cons, kept, ih, differ]

/-- The value of a key is the one its entry holds. -/
theorem get?_of_mem [BEq κ] [LawfulBEq κ] (d : Dict κ ν) (k : κ) (v : ν) (member : (k, v) ∈ d.items) :
    d.get? k = some v := by
  obtain ⟨front, back, split⟩ := List.append_of_mem member
  have keys := d.nodup
  rw [split, List.map_append, List.map_cons, List.nodup_append] at keys
  rw [get?, List.lookup_eq_some_iff]
  refine ⟨front, back, split, fun entry inFront => bne_iff_ne.mpr fun same => keys.2.2 ?_ (List.mem_cons_self _ _)⟩
  simpa [same] using List.mem_map_of_mem Prod.fst inFront

theorem mem_of_get? [BEq κ] [LawfulBEq κ] (d : Dict κ ν) (k : κ) (v : ν) (found : d.get? k = some v) :
    (k, v) ∈ d.items := by
  obtain ⟨front, back, split, -⟩ := List.lookup_eq_some_iff.mp found
  rw [split]
  exact List.mem_append_right _ (List.mem_cons_self _ _)

theorem get?_eq_none [BEq κ] [LawfulBEq κ] (d : Dict κ ν) (k : κ) (absent : k ∉ d.keys) : d.get? k = none := by
  cases found : d.get? k with
  | none => rfl
  | some v => exact absurd (List.mem_map_of_mem Prod.fst (d.mem_of_get? k v found)) absent

variable [DecidableEq κ]

/-- `k in d`. -/
def contains (d : Dict κ ν) (k : κ) : Bool := k ∈ d.keys

theorem contains_iff_mem (d : Dict κ ν) (k : κ) : d.contains k = true ↔ ∃ v, (k, v) ∈ d.items := by
  simp only [contains, keys, decide_eq_true_eq, List.mem_map]
  exact ⟨fun ⟨(_, v), member, same⟩ => ⟨v, same ▸ member⟩,
    fun ⟨v, member⟩ => ⟨(k, v), member, rfl⟩⟩

/-- `d.pop(k)`, the popped value dropped. -/
def pop (d : Dict κ ν) (k : κ) : Py (Dict κ ν) :=
  if d.contains k then .ok (d.filterKeys (· ≠ k)) else .error .keyError

/-- `d[k] = v`: an existing key keeps its place, a new key goes last. -/
def set (d : Dict κ ν) (k : κ) (v : ν) : Dict κ ν :=
  if present : d.contains k then
    ⟨d.items.map (fun entry => if entry.1 = k then (k, v) else entry), by
      have keysSame : (d.items.map (fun entry => if entry.1 = k then (k, v) else entry)).map Prod.fst =
          d.items.map Prod.fst := by
        rw [List.map_map]
        exact List.map_congr_left (fun entry _ => by by_cases same : entry.1 = k <;> simp [same])
      rw [keysSame]
      exact d.nodup⟩
  else
    ⟨d.items ++ [(k, v)], by
      simp only [contains, keys, decide_eq_true_eq] at present
      simpa [List.nodup_append, present] using d.nodup⟩

theorem lookup_map_replace [BEq κ] [LawfulBEq κ] (items : List (κ × ν)) (k k' : κ) (v : ν) (differ : k' ≠ k) :
    (items.map fun entry => if entry.1 = k then (k, v) else entry).lookup k' = items.lookup k' := by
  induction items with
  | nil => rfl
  | cons entry rest ih =>
    obtain ⟨key, value⟩ := entry
    by_cases same : key = k
    · subst same
      simp [List.lookup_cons, beq_false_of_ne differ, ih]
    · rw [List.map_cons, if_neg same, List.lookup_cons, List.lookup_cons, ih]

theorem lookup_map_replace_self [BEq κ] [LawfulBEq κ] (items : List (κ × ν)) (k : κ) (v : ν) (present : k ∈ items.map Prod.fst) :
    (items.map fun entry => if entry.1 = k then (k, v) else entry).lookup k = some v := by
  induction items with
  | nil => simp at present
  | cons entry rest ih =>
    obtain ⟨key, value⟩ := entry
    by_cases same : key = k
    · subst same
      simp [List.lookup_cons]
    · have inRest : k ∈ rest.map Prod.fst := by simpa [Ne.symm same] using present
      rw [List.map_cons, if_neg same, List.lookup_cons, beq_false_of_ne (Ne.symm same)]
      exact ih inRest

theorem lookup_append_singleton_of_not_mem [BEq κ] [LawfulBEq κ] (items : List (κ × ν)) (k k' : κ) (v : ν)
    (absent : k ∉ items.map Prod.fst) :
    (items ++ [(k, v)]).lookup k' = if k' = k then some v else items.lookup k' := by
  induction items with
  | nil =>
    by_cases same : k' = k
    · subst same; simp [List.lookup_cons]
    · simp [List.lookup_cons, same, beq_false_of_ne same]
  | cons entry rest ih =>
    obtain ⟨key, value⟩ := entry
    have differ : key ≠ k := fun same => absent (by simp [same])
    have restAbsent : k ∉ rest.map Prod.fst := fun member => absent (List.mem_cons_of_mem _ member)
    rw [List.cons_append, List.lookup_cons, List.lookup_cons, ih restAbsent]
    by_cases same : k' = key
    · subst same; simp [differ]
    · simp [beq_false_of_ne same]

/-- `d[k] = v` changes the value at `k` and nothing else. -/
theorem get?_set [BEq κ] [LawfulBEq κ] (d : Dict κ ν) (k k' : κ) (v : ν) :
    (d.set k v).get? k' = if k' = k then some v else d.get? k' := by
  unfold set get?
  split
  · next present =>
    simp only [contains, keys, decide_eq_true_eq] at present
    by_cases same : k' = k
    · subst same; simp [lookup_map_replace_self _ _ _ present]
    · simp [same, lookup_map_replace _ _ _ _ same]
  · next absent =>
    simp only [contains, keys, decide_eq_true_eq] at absent
    exact lookup_append_singleton_of_not_mem _ _ _ _ absent

/-- A key that is not in `d` goes last. -/
theorem set_items_of_not_mem (d : Dict κ ν) (k : κ) (v : ν) (absent : k ∉ d.keys) :
    (d.set k v).items = d.items ++ [(k, v)] := by
  simp [set, contains, absent]

/-- Setting a key adds no key but that one. -/
theorem mem_keys_set (d : Dict κ ν) (k k' : κ) (v : ν) (member : k' ∈ (d.set k v).keys) : k' ∈ d.keys ∨ k' = k := by
  unfold set keys at member
  split at member
  · simp only [List.map_map, List.mem_map, Function.comp_apply] at member
    obtain ⟨entry, inItems, rfl⟩ := member
    by_cases same : entry.1 = k
    · simp [same]
    · exact .inl (by simpa [same, keys] using ⟨entry.2, by simpa using inItems⟩)
  · simpa [keys] using member

theorem pop_of_contains (d : Dict κ ν) (k : κ) (present : k ∈ d.keys) :
    d.pop k = .ok (d.filterKeys (· ≠ k)) := by
  simp [pop, contains, present]

end Dict

end FsImage.Python
