import Mathlib.Data.List.Forall2
import AbnfCompiler.Pattern.Basic
import AbnfCompiler.Proofs.Text.Case

/-!
Which of the ways to match a pattern is the first one, and where a search ends.
-/
namespace AbnfCompiler.Pattern

variable {p q : Pattern} {before : Option Char} {cs rest run word : List Char} {v w : Way}

/-- The characters are the word up to letter case. -/
def Spells (word cs : List Char) : Prop := List.Forall₂ (fun a b ↦ Text.sameLetter a b) word cs

theorem spells_self (word : List Char) : Spells word word :=
  List.forall₂_same.2 fun c _ ↦ Text.sameLetter_self c

/-- Case does not matter for a mark. -/
theorem Spells.mem_iff (mark : Char) (hmark : Text.IsCaseless mark.toNat) (h : Spells word cs) :
    mark ∈ cs ↔ mark ∈ word := by
  induction h with
  | nil => rfl
  | @cons a b _ _ hab _ ih =>
    have hhead : mark = b ↔ mark = a := by
      constructor
      · rintro rfl
        exact (hmark.eq_of_sameLetter hab).symm
      · rintro rfl
        exact (hmark.sameLetter_iff.1 hab).symm
    rw [List.mem_cons, List.mem_cons, ih, hhead]

/-- The set of all characters but a mark. -/
theorem setHas_iff_ne (mark : Char) (hmark : Text.IsCaseless mark.toNat) (c : Char) :
    setHas true [.range mark.toNat mark.toNat] c ↔ c ≠ mark := by
  have hhas : (SetItem.range mark.toNat mark.toNat).has c ↔ mark.toNat ∈ Text.caseForms c := by
    rw [SetItem.has, List.any_eq_true]
    constructor
    · rintro ⟨n, hn, hrange⟩
      rw [Bool.and_eq_true, decide_eq_true_eq, decide_eq_true_eq] at hrange
      obtain rfl : n = mark.toNat := Nat.le_antisymm hrange.2 hrange.1
      exact hn
    · intro hmem
      exact ⟨mark.toNat, hmem, by simp⟩
  rw [setHas, List.any_cons, List.any_nil, Bool.or_false, bne_iff_ne, Ne, hhas,
    hmark.mem_caseForms, Char.toNat_inj]

section First

/-- The way is the first one that is tried. -/
def First (p : Pattern) (before : Option Char) (cs : List Char) (w : Way) : Prop :=
  (p.ways before cs).head? = some w

theorem First.sequence (hp : First p before cs v) (hq : First q (v.last before) v.rest w) :
    First (.sequence p q) before cs (v.followedBy w) := by
  obtain ⟨vs, hvs⟩ := List.head?_eq_some_iff.1 hp
  obtain ⟨ws, hws⟩ := List.head?_eq_some_iff.1 hq
  rw [First, ways, hvs, List.flatMap_cons, hws]
  rfl

theorem First.group (hp : First p before cs w) (name : String) :
    First (.group name p) before cs (w.named name) := by
  rw [First, ways, List.head?_map, hp]
  rfl

theorem first_empty (before : Option Char) (cs : List Char) :
    First .empty before cs ⟨[], cs, []⟩ := rfl

theorem first_letter {c x : Char} (h : Text.sameLetter c x) (before : Option Char)
    (rest : List Char) : First (.letter c) before (x :: rest) ⟨[x], rest, []⟩ := by
  rw [First, ways, take, if_pos h]
  rfl

theorem first_text {s : String} (h : Spells s.toList word) (before : Option Char)
    (rest : List Char) : First (text s) before (word ++ rest) ⟨word, rest, []⟩ := by
  rw [text]
  generalize s.toList = letters at h
  induction h generalizing before with
  | nil => exact first_empty before rest
  | cons hc _ ih => exact (first_letter hc before _).sequence (ih _)

/-- A greedy repetition takes all that it can take. -/
theorem head?_repetitions {holds : Char → Bool} {fuel least : ℕ} (hfuel : run.length < fuel)
    (hleast : least ≤ run.length) (hrun : ∀ c ∈ run, holds c)
    (hrest : ∀ c ∈ rest.head?, holds c = false) (before : Option Char) :
    (repetitions (fun _ ↦ take holds) false fuel least none before (run ++ rest)).head?
      = some ⟨run, rest, []⟩ := by
  induction run generalizing fuel least before with
  | nil =>
    obtain ⟨fuel, rfl⟩ := Nat.exists_eq_succ_of_ne_zero (Nat.ne_zero_of_lt hfuel)
    obtain rfl : least = 0 := Nat.le_zero.1 hleast
    have htake : take holds rest = [] := by
      cases rest with
      | nil => rfl
      | cons c rest => rw [take, hrest c rfl]; rfl
    rw [List.nil_append, repetitions, htake]
    rfl
  | cons c run ih =>
    obtain ⟨fuel, rfl⟩ := Nat.exists_eq_succ_of_ne_zero (Nat.ne_zero_of_lt hfuel)
    rw [List.forall_mem_cons] at hrun
    rw [List.length_cons] at hfuel hleast
    have htake : take holds (c :: (run ++ rest)) = [⟨[c], run ++ rest, []⟩] := by
      rw [take, if_pos hrun.1]
    have hfuel' : run.length < fuel := by omega
    have hleast' : least - 1 ≤ run.length := by omega
    have hmore := ih hfuel' hleast' hrun.2 (some c)
    obtain ⟨ws, hws⟩ := List.head?_eq_some_iff.1 hmore
    rw [List.cons_append, repetitions, htake]
    simp only [reduceCtorEq, if_false, List.flatMap_singleton, List.isEmpty_cons, Bool.false_and,
      Bool.false_eq_true, Option.map_none]
    change (List.map _ (repetitions _ _ _ _ _ (some c) _) ++ _).head? = _
    rw [hws]
    rfl

theorem first_oneOrMore {complement : Bool} {items : List SetItem} (hne : run ≠ [])
    (hrun : ∀ c ∈ run, setHas complement items c)
    (hrest : ∀ c ∈ rest.head?, setHas complement items c = false) (before : Option Char) :
    First (.many (.set complement items) 1 none false) before (run ++ rest) ⟨run, rest, []⟩ := by
  rw [First, ways]
  refine head?_repetitions ?_ (List.length_pos_of_ne_nil hne) hrun hrest before
  rw [List.length_append]
  omega

end First

section Ways

theorem mem_ways_sequence : w ∈ (sequence p q).ways before cs ↔
    ∃ u ∈ p.ways before cs, ∃ v ∈ q.ways (u.last before) u.rest, u.followedBy v = w := by
  rw [ways, List.mem_flatMap]
  simp only [List.mem_map]

theorem of_mem_ways_letter {c : Char} (h : w ∈ (letter c).ways before cs) :
    ∃ x, Text.sameLetter c x ∧ w.taken = [x] ∧ cs = x :: w.rest := by
  cases cs with
  | nil => cases h
  | cons x cs =>
    rw [ways, take] at h
    split at h
    · next hx =>
      rw [List.mem_singleton.1 h]
      exact ⟨x, hx, rfl, rfl⟩
    · cases h

theorem of_mem_ways_text {s : String} (h : w ∈ (text s).ways before cs) :
    Spells s.toList w.taken ∧ cs = w.taken ++ w.rest := by
  rw [text] at h
  generalize s.toList = letters at h ⊢
  induction letters generalizing before cs w with
  | nil =>
    rw [List.foldr_nil, ways, when, if_pos rfl, List.mem_singleton] at h
    rw [h]
    exact ⟨.nil, rfl⟩
  | cons c word ih =>
    obtain ⟨u, hu, v, hv, rfl⟩ := mem_ways_sequence.1 h
    obtain ⟨x, hx, htaken, rfl⟩ := of_mem_ways_letter hu
    obtain ⟨hspells, hrest⟩ := ih hv
    rw [Way.followedBy, htaken]
    exact ⟨.cons hx hspells, by rw [hrest]; rfl⟩

end Ways

section Search

theorem searchFrom_of_first (h : First p before cs w) : p.searchFrom before cs = some w := by
  cases cs with
  | nil => exact h
  | cons c cs =>
    rw [searchFrom, h]

/-- A search passes over the places where there is no way to match. -/
theorem searchFrom_append {skipped : List Char}
    (hskip : ∀ a b, skipped = a ++ b → b ≠ [] → ∀ before, p.ways before (b ++ cs) = [])
    (hfirst : ∀ before, First p before cs w) (before : Option Char) :
    p.searchFrom before (skipped ++ cs) = some w := by
  induction skipped generalizing before with
  | nil => exact searchFrom_of_first (hfirst before)
  | cons c skipped ih =>
    have hnone := hskip [] (c :: skipped) rfl (List.cons_ne_nil _ _) before
    rw [List.cons_append] at hnone ⊢
    rw [searchFrom, hnone]
    refine ih (fun a b hsplit ↦ hskip (c :: a) b ?_) (some c)
    rw [hsplit, List.cons_append]

theorem search_eq_some {s : String} {skipped : List Char} (hs : s.toList = skipped ++ cs)
    (hskip : ∀ a b, skipped = a ++ b → b ≠ [] → ∀ before, p.ways before (b ++ cs) = [])
    (hfirst : ∀ before, First p before cs w) : p.search s = some w := by
  rw [search, hs]
  exact searchFrom_append hskip hfirst none

end Search

end AbnfCompiler.Pattern
