import Mathlib.Data.List.DropRight
import AbnfCompiler.Text.Blank

/-!
Lists without the elements at either end that satisfy a predicate.
-/
namespace AbnfCompiler.Text

variable {p : Char → Bool} {cs : List Char}

theorem dropWhile_eq_self (h : ∀ c ∈ cs.head?, p c = false) : cs.dropWhile p = cs := by
  cases cs with
  | nil => rfl
  | cons c cs => rw [List.dropWhile_cons_of_neg (by simpa using h c rfl)]

theorem trimBoth_eq_self (hfirst : ∀ c ∈ cs.head?, p c = false)
    (hlast : ∀ c ∈ cs.getLast?, p c = false) : trimBoth p cs = cs := by
  rw [trimBoth, dropWhile_eq_self hfirst, dropWhile_eq_self, List.reverse_reverse]
  rwa [List.head?_reverse]

theorem of_mem_head?_dropWhile {c : Char} (h : c ∈ (cs.dropWhile p).head?) : p c = false := by
  have hnot := List.head?_dropWhile_not p cs
  rw [Option.mem_def.1 h] at hnot
  exact hnot

theorem of_mem_head?_trimBoth {c : Char} (h : c ∈ (trimBoth p cs).head?) : p c = false := by
  have hprefix : trimBoth p cs <+: cs.dropWhile p := List.rdropWhile_prefix ..
  obtain ⟨rest, hrest⟩ := hprefix
  have hhead : c ∈ (cs.dropWhile p).head? := by
    rw [← hrest, List.head?_append, Option.mem_def.1 h]
    rfl
  exact of_mem_head?_dropWhile hhead

theorem of_mem_getLast?_trimBoth {c : Char} (h : c ∈ (trimBoth p cs).getLast?) : p c = false := by
  rw [trimBoth, List.getLast?_reverse] at h
  exact of_mem_head?_dropWhile h

theorem trimBoth_trimBoth (p : Char → Bool) (cs : List Char) :
    trimBoth p (trimBoth p cs) = trimBoth p cs :=
  trimBoth_eq_self (fun _ ↦ of_mem_head?_trimBoth) fun _ ↦ of_mem_getLast?_trimBoth

theorem trimBoth_map {f : Char → Char} (h : ∀ c, p (f c) = p c) (cs : List Char) :
    trimBoth p (cs.map f) = (trimBoth p cs).map f := by
  have hp : p ∘ f = p := funext h
  rw [trimBoth, trimBoth, List.dropWhile_map, hp, ← List.map_reverse, List.dropWhile_map, hp,
    List.map_reverse]

section Spaced

/-- The second characters are the first ones with blanks put in anywhere. -/
inductive Spaced : List Char → List Char → Prop
  | nil : Spaced [] []
  | keep {c : Char} {cs ts : List Char} : Spaced cs ts → Spaced (c :: cs) (c :: ts)
  | blank {c : Char} {cs ts : List Char} : isBlank c → Spaced cs ts → Spaced cs (c :: ts)

theorem Spaced.filter {ts : List Char} (h : Spaced cs ts) (hcs : ∀ c ∈ cs, isBlank c = false) :
    (ts.filter fun c ↦ !isBlank c) = cs := by
  induction h with
  | nil => rfl
  | keep _ ih =>
    obtain ⟨hc, hcs⟩ := List.forall_mem_cons.1 hcs
    rw [List.filter_cons_of_pos (by rw [hc]; rfl), ih hcs]
  | blank hc _ ih =>
    rw [List.filter_cons_of_neg (by rw [hc]; exact Bool.false_ne_true), ih hcs]

end Spaced

end AbnfCompiler.Text
