import Mathlib.Data.List.Induction
import StyleBinding.Value.Entries

/-!
# Merging mappings

Keys that are the same make an equivalence: they are those with one canonical
form. Putting an entry into a mapping leaves the places of all keys as they are,
so an entry can be put before or after others as long as its key is there. From
this, merging is associative: a mapping that has been merged before can be merged
as a whole. What is merged has its keys where they come first and its values where
they come last.
-/

namespace StyleBinding

/-! ## Keys -/

namespace Scalar

/-- What a scalar is as a key: a number that is equal to an integer is that one. -/
def canonical (s : Scalar) : Scalar :=
  match s.toInt? with
  | some n => .integer n
  | none => s

theorem same_iff {s t : Scalar} : s.same t = true ↔ s.canonical = t.canonical := by
  unfold same canonical
  rcases hs : s.toInt? with _ | m <;> rcases ht : t.toInt? with _ | n
  · exact beq_iff_eq
  · refine ⟨nofun, ?_⟩
    rintro rfl
    cases hs
  · refine ⟨nofun, ?_⟩
    rintro rfl
    cases ht
  · dsimp only
    rw [beq_iff_eq, Scalar.integer.injEq]

end Scalar

namespace Key

mutual
/-- A key with every scalar in it in its canonical form. -/
def canonical : Key → Key
  | scalar s => .scalar s.canonical
  | tuple items => .tuple (canonicals items)

/-- Keys in their canonical forms. -/
def canonicals : List Key → List Key
  | [] => []
  | key :: rest => canonical key :: canonicals rest
end

mutual
/-- Keys name the same entry if and only if they have one canonical form. -/
theorem same_iff : ∀ {k l : Key}, k.same l = true ↔ k.canonical = l.canonical
  | scalar s, scalar t => by rw [same, canonical, canonical, Scalar.same_iff, Key.scalar.injEq]
  | tuple items, tuple others => by
    rw [same, canonical, canonical, sameAll_iff, Key.tuple.injEq]
  | scalar _, tuple _ => by simp [same, canonical]
  | tuple _, scalar _ => by simp [same, canonical]

theorem sameAll_iff : ∀ {keys others : List Key},
    sameAll keys others = true ↔ canonicals keys = canonicals others
  | [], [] => by simp [sameAll]
  | k :: rest, l :: others => by
    rw [sameAll, Bool.and_eq_true, same_iff, sameAll_iff, canonicals, canonicals, List.cons.injEq]
  | [], _ :: _ => by simp [sameAll, canonicals]
  | _ :: _, [] => by simp [sameAll, canonicals]
end

variable {k l m : Key}

theorem same_self (k : Key) : k.same k = true := same_iff.2 rfl

theorem same_comm (k l : Key) : k.same l = l.same k := by
  rw [Bool.eq_iff_iff, same_iff, same_iff, eq_comm]

/-- Keys that are the same are the same as the same keys. -/
theorem same_congr (h : k.same l = true) (m : Key) : k.same m = l.same m := by
  rw [Bool.eq_iff_iff, same_iff, same_iff, same_iff.1 h]

/-- Keys, each where it comes first. -/
def firsts : List Key → List Key
  | [] => []
  | k :: rest => k :: (firsts rest).filter fun l => !k.same l

end Key

/-! ## Putting -/

namespace Entries

/-- The keys of a mapping, in order. -/
def keys (s : Entries) : List Key := s.map (·.1)

/-- Whether a mapping has an entry of a key. -/
def has (k : Key) (s : Entries) : Bool := s.keys.any (·.same k)

/-- No two entries have the same key. -/
def Distinct (s : Entries) : Prop := s.keys.Pairwise fun k l => k.same l = false

instance (s : Entries) : Decidable s.Distinct :=
  inferInstanceAs (Decidable (s.keys.Pairwise fun k l => k.same l = false))

variable {s t : Entries} {k l : Key} {v w : Value} {e : Key × Value}

@[simp] theorem keys_nil : keys [] = [] := rfl

@[simp] theorem keys_cons (e : Key × Value) (s : Entries) : keys (e :: s) = e.1 :: keys s := rfl

@[simp] theorem keys_append (s t : Entries) : keys (s ++ t) = keys s ++ keys t := List.map_append

@[simp] theorem has_nil (k : Key) : has k [] = false := rfl

@[simp] theorem has_cons (k : Key) (e : Key × Value) (s : Entries) :
    has k (e :: s) = (e.1.same k || has k s) := rfl

theorem Distinct.nil : Distinct [] := List.Pairwise.nil

theorem distinct_cons : Distinct (e :: s) ↔ has e.1 s = false ∧ s.Distinct := by
  rw [Distinct, keys_cons, List.pairwise_cons, has, List.any_eq_false]
  refine and_congr_left fun _ => forall₂_congr fun l _ => ?_
  rw [Key.same_comm, Bool.not_eq_true]

theorem has_congr (h : k.same l = true) (s : Entries) : has k s = has l s := by
  unfold has
  congr 1
  funext m
  rw [Key.same_comm m k, Key.same_comm m l, Key.same_congr h]

/-- A key stays where it is, and a new one goes to the end. -/
theorem keys_put (k : Key) (v : Value) (s : Entries) :
    keys (put k v s) = if has k s then keys s else keys s ++ [k] := by
  induction s with
  | nil => rfl
  | cons e rest ih =>
    rw [put, has_cons]
    cases same : e.1.same k with
    | true => rfl
    | false =>
      rw [if_neg Bool.false_ne_true, keys_cons, ih, Bool.false_or, keys_cons]
      split <;> rfl

theorem has_put (k : Key) (v : Value) (s : Entries) (l : Key) :
    has l (put k v s) = (has l s || k.same l) := by
  unfold has
  rw [keys_put]
  split
  · rename_i present
    cases same : k.same l with
    | false => rw [Bool.or_false]
    | true =>
      rw [has_congr same, has] at present
      rw [present, Bool.true_or]
  · rw [List.any_append, List.any_cons, List.any_nil, Bool.or_false]

theorem Distinct.put (h : s.Distinct) (k : Key) (v : Value) : (put k v s).Distinct := by
  unfold Distinct
  rw [keys_put]
  split
  · exact h
  · rename_i absent
    rw [Bool.not_eq_true, has, List.any_eq_false] at absent
    refine List.pairwise_append.2 ⟨h, List.pairwise_singleton .., ?_⟩
    intro l member m isKey
    rw [List.mem_singleton.1 isKey]
    exact Bool.eq_false_iff.2 (absent l member)

theorem get?_put (k : Key) (v : Value) (s : Entries) (l : Key) :
    get? l (put k v s) = if k.same l then some v else get? l s := by
  induction s with
  | nil => rfl
  | cons e rest ih =>
    rw [put]
    cases same : e.1.same k with
    | true =>
      rw [if_pos rfl, get?, get?, Key.same_congr same]
      split <;> rfl
    | false =>
      rw [if_neg Bool.false_ne_true, get?, get?, ih]
      cases here : e.1.same l with
      | false => rfl
      | true =>
        have other : k.same l = false := by
          rw [Key.same_comm, ← Key.same_congr here, same]
        rw [other, if_pos rfl, if_neg Bool.false_ne_true, if_pos rfl]

theorem get?_append (k : Key) (s t : Entries) : get? k (s ++ t) = (get? k s).or (get? k t) := by
  induction s with
  | nil => rfl
  | cons e rest ih =>
    rw [List.cons_append, get?, get?]
    split
    · rfl
    · exact ih

/-- In a mapping with its keys apart, every entry is found by its key. -/
theorem Distinct.get?_of_mem (h : s.Distinct) (member : e ∈ s) : get? e.1 s = some e.2 := by
  induction s with
  | nil => cases member
  | cons first rest ih =>
    obtain ⟨absent, distinct⟩ := distinct_cons.1 h
    rw [get?]
    rcases List.mem_cons.1 member with rfl | member
    · rw [if_pos (Key.same_self _)]
    · rw [has, List.any_eq_false] at absent
      have other := absent e.1 (List.mem_map_of_mem member)
      rw [Key.same_comm, Bool.not_eq_true] at other
      rw [other, if_neg Bool.false_ne_true, ih distinct member]

/-- The later of two values of a key counts. -/
theorem put_put (h : k.same l = true) (v w : Value) (s : Entries) :
    put l w (put k v s) = put k w s := by
  induction s with
  | nil => rw [put, put, put, if_pos h]
  | cons e rest ih =>
    rw [put, put]
    cases same : e.1.same k with
    | true =>
      have isL : e.1.same l = true := by rw [Key.same_congr same, h]
      rw [if_pos rfl, if_pos rfl, put, if_pos isL]
    | false =>
      have notL : e.1.same l = false := by
        rw [Key.same_comm, ← Key.same_congr h, Key.same_comm, same]
      rw [if_neg Bool.false_ne_true, if_neg Bool.false_ne_true, put, notL,
        if_neg Bool.false_ne_true, ih]

/-- An entry whose key is there can be put before or after another one. -/
theorem put_comm (present : has l s = true) (other : k.same l = false) (v w : Value) :
    put l w (put k v s) = put k v (put l w s) := by
  induction s with
  | nil => cases present
  | cons e rest ih =>
    rw [put, put]
    cases isL : e.1.same l with
    | true =>
      have notK : e.1.same k = false := by rw [Key.same_congr isL, Key.same_comm, other]
      rw [notK, if_neg Bool.false_ne_true, if_pos rfl, put, isL, if_pos rfl, put, notK,
        if_neg Bool.false_ne_true]
    | false =>
      rw [has_cons, isL, Bool.false_or] at present
      rw [if_neg Bool.false_ne_true]
      cases isK : e.1.same k with
      | true => rw [if_pos rfl, put, isL, if_neg Bool.false_ne_true, put, isK, if_pos rfl]
      | false =>
        rw [if_neg Bool.false_ne_true, put, isL, if_neg Bool.false_ne_true, put, isK,
          if_neg Bool.false_ne_true, ih present]

/-! ## Merging -/

@[simp] theorem merge_nil (s : Entries) : s.merge [] = s := rfl

@[simp] theorem merge_cons (s : Entries) (e : Key × Value) (a : Entries) :
    s.merge (e :: a) = (put e.1 e.2 s).merge a := rfl

theorem merge_append (s a b : Entries) : s.merge (a ++ b) = (s.merge a).merge b :=
  List.foldl_append

theorem Distinct.merge (h : s.Distinct) (a : Entries) : (s.merge a).Distinct := by
  induction a generalizing s with
  | nil => exact h
  | cons e rest ih => exact ih (h.put e.1 e.2)

/-- An entry whose key is there, and not in what is merged, can be put before. -/
theorem put_merge (present : has k s = true) {a : Entries} (absent : has k a = false)
    (v : Value) : put k v (s.merge a) = (put k v s).merge a := by
  induction a generalizing s with
  | nil => rfl
  | cons e rest ih =>
    rw [has_cons, Bool.or_eq_false_iff] at absent
    have stays : has k (put e.1 e.2 s) = true := by rw [has_put, present, Bool.true_or]
    rw [merge_cons, merge_cons, ih stays absent.2, put_comm present absent.1]

/-- What is put into a mapping before it is merged can be put behind it. -/
theorem merge_put {a : Entries} (h : a.Distinct) (s : Entries) (k : Key) (v : Value) :
    s.merge (put k v a) = put k v (s.merge a) := by
  induction a generalizing s with
  | nil => rfl
  | cons e rest ih =>
    obtain ⟨absent, distinct⟩ := distinct_cons.1 h
    rw [put, merge_cons]
    cases same : e.1.same k with
    | true =>
      have present : has k (put e.1 e.2 s) = true := by rw [has_put, same, Bool.or_true]
      rw [has_congr same] at absent
      rw [if_pos rfl, merge_cons, put_merge present absent, put_put same]
    | false => rw [if_neg Bool.false_ne_true, merge_cons, ih distinct]

/-- Merging is associative. -/
theorem merge_assoc {a : Entries} (h : a.Distinct) (s b : Entries) :
    s.merge (a.merge b) = (s.merge a).merge b := by
  induction b generalizing a with
  | nil => rfl
  | cons e rest ih => rw [merge_cons, merge_cons, ih (h.put e.1 e.2), merge_put h]

/-- A mapping merged from nothing is merged as it stands. -/
theorem merge_merge_nil (s b : Entries) : s.merge (merge [] b) = s.merge b :=
  merge_assoc .nil s b

/-- Mappings are merged one by one as all their entries are. -/
theorem foldl_merge_map {α : Type} (f : α → Entries) (items : List α) (s : Entries) :
    (items.map f).foldl merge s = s.merge (items.flatMap f) := by
  induction items generalizing s with
  | nil => rfl
  | cons item rest ih => rw [List.map_cons, List.foldl_cons, ih, List.flatMap_cons, merge_append]

theorem put_of_absent (absent : has k s = false) (v : Value) : put k v s = s ++ [(k, v)] := by
  induction s with
  | nil => rfl
  | cons e rest ih =>
    rw [has_cons, Bool.or_eq_false_iff] at absent
    rw [put, absent.1, if_neg Bool.false_ne_true, ih absent.2, List.cons_append]

theorem distinct_append_singleton :
    (s ++ [e]).Distinct ↔ s.Distinct ∧ has e.1 s = false := by
  rw [Distinct, keys_append, List.pairwise_append, has, List.any_eq_false]
  simp [Distinct]

/-- A mapping put together anew is the same. -/
theorem merge_nil_of_distinct {a : Entries} (h : a.Distinct) : merge [] a = a := by
  induction a using List.reverseRecOn with
  | nil => rfl
  | append_singleton front e ih =>
    obtain ⟨distinct, absent⟩ := distinct_append_singleton.1 h
    rw [merge_append, ih distinct, merge_cons, merge_nil, put_of_absent absent]

/-- The value of a key is the last one that is put for it. -/
theorem get?_merge (k : Key) (s a : Entries) :
    get? k (s.merge a) = (get? k a.reverse).or (get? k s) := by
  induction a generalizing s with
  | nil => rfl
  | cons e rest ih =>
    rw [merge_cons, ih, get?_put, List.reverse_cons, get?_append, Option.or_assoc]
    congr 1
    rw [get?]
    split <;> rfl

/-- Keys stand where they come first. -/
theorem keys_merge (s a : Entries) :
    (s.merge a).keys = s.keys ++ (Key.firsts a.keys).filter fun k => !has k s := by
  induction a generalizing s with
  | nil => exact (List.append_nil _).symm
  | cons e rest ih =>
    have later (k : Key) : (!has k (put e.1 e.2 s)) = (!has k s && !e.1.same k) := by
      rw [has_put, Bool.not_or]
    rw [merge_cons, ih, keys_put, keys_cons, Key.firsts, List.filter_cons, List.filter_filter]
    simp only [later]
    cases present : has e.1 s with
    | false => simp
    | true => rfl

end Entries

end StyleBinding
