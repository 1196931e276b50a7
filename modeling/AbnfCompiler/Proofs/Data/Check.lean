import Mathlib.Data.List.Forall2
import AbnfCompiler.Data.Check

/-!
Checks that succeed. A record passes with each of its fields, a list with each of its items, and a
field depends on the value under its name alone, so that a list can be given further items.
-/
namespace AbnfCompiler.Data

variable {α β : Type}

section Checked

open Checked

theorem seq_eq_ok {f : Checked (α → β)} {x : Checked α} {b : β} :
    f <*> x = .ok b ↔ ∃ g a, f = .ok g ∧ x = .ok a ∧ g a = b := by
  change apply f x = .ok b ↔ _
  cases f with
  | ok g => cases x <;> simp [apply]
  | issues is => cases x <;> simp [apply]

theorem map_eq_ok {g : α → β} {x : Checked α} {b : β} :
    g <$> x = .ok b ↔ ∃ a, x = .ok a ∧ g a = b := by
  change pure g <*> x = .ok b ↔ _
  rw [seq_eq_ok]
  constructor
  · rintro ⟨_, a, hg, ha, hb⟩
    cases hg
    exact ⟨a, ha, hb⟩
  · rintro ⟨a, ha, hb⟩
    exact ⟨g, a, rfl, ha, hb⟩

theorem within_eq_ok {step : Step} {x : Checked α} {a : α} : within step x = .ok a ↔ x = .ok a := by
  cases x <;> simp [within]

theorem eachFrom_eq_ok {check : Value → Checked α} {i : Nat} {items : List Value} {as : List α} :
    eachFrom check i items = .ok as ↔ List.Forall₂ (fun v a ↦ check v = .ok a) items as := by
  induction items generalizing i as with
  | nil =>
    rw [List.forall₂_nil_left_iff, eachFrom]
    exact ⟨fun h ↦ by cases h; rfl, fun h ↦ by rw [h]⟩
  | cons v items ih =>
    rw [eachFrom, seq_eq_ok, List.forall₂_cons_left_iff]
    constructor
    · rintro ⟨_, as, hhead, htail, rfl⟩
      obtain ⟨a, ha, rfl⟩ := map_eq_ok.1 hhead
      exact ⟨a, as, within_eq_ok.1 ha, ih.1 htail, rfl⟩
    · rintro ⟨a, as, ha, htail, rfl⟩
      exact ⟨_, as, map_eq_ok.2 ⟨a, within_eq_ok.2 ha, rfl⟩, ih.2 htail, rfl⟩

end Checked

namespace Value

variable {key name : String} {value : Value} {entries : List (Value × Value)}

theorem sameKey_text (k : Value) (key : String) : k.sameKey (.text key) = k.isText key := by
  cases k with
  | text s => exact Bool.beq_comm
  | null | bool | int | float | list | map => rfl

theorem find?_put_self (key : String) (value : Value) (entries : List (Value × Value)) :
    find? key (put (.text key) value entries) = some value := by
  induction entries with
  | nil => simp [put, find?, isText]
  | cons entry entries ih =>
    obtain ⟨k, v⟩ := entry
    rw [put, sameKey_text]
    by_cases h : k.isText key
    · simp [find?, h]
    · simpa [find?, h] using ih

theorem find?_put_ne (h : name ≠ key) :
    find? name (put (.text key) value entries) = find? name entries := by
  have hkey {k : Value} (hk : k.isText key) : k.isText name = false := by
    cases k with
    | text s => simpa [isText, ← beq_iff_eq.1 hk] using h
    | null | bool | int | float | list | map => rfl
  induction entries with
  | nil => simp [put, find?, isText, h]
  | cons entry entries ih =>
    obtain ⟨k, v⟩ := entry
    rw [put, sameKey_text]
    by_cases hk : k.isText key
    · simp [find?, hk, hkey hk]
    · unfold find? at ih ⊢
      simp only [hk, Bool.false_eq_true, ↓reduceIte, List.find?_cons]
      split
      · rfl
      · exact ih

/-- The items of the list under a key; none if there is no such list. -/
def itemsUnder (key : String) (entries : List (Value × Value)) : List Value :=
  match find? key entries with
  | some (.list items) => items
  | _ => []

/-- The entries with further items at the end of the list under a key. -/
def appended (key : String) (items : List Value) (entries : List (Value × Value)) :
    List (Value × Value) :=
  put (.text key) (.list (itemsUnder key entries ++ items)) entries

theorem find?_appended_ne {items : List Value} (h : name ≠ key) :
    find? name (appended key items entries) = find? name entries :=
  find?_put_ne h

end Value

section Fields

open Checked Value

variable {entries entries' : List (Value × Value)} {name : String} {check : Value → Checked α}

theorem required_congr (h : find? name entries' = find? name entries) :
    required entries' name check = required entries name check := by
  rw [required, required, h]

theorem defaulted_congr {default : α} (h : find? name entries' = find? name entries) :
    defaulted entries' name check default = defaulted entries name check default := by
  rw [defaulted, defaulted, h]

/-- A list passes with further items if they do. -/
theorem defaulted_appended {items : List Value} {as bs : List α}
    (h : defaulted entries name (asTuple check) [] = .ok as)
    (hitems : List.Forall₂ (fun v a ↦ check v = .ok a) items bs) :
    defaulted (appended name items entries) name (asTuple check) [] = .ok (as ++ bs) := by
  have has : List.Forall₂ (fun v a ↦ check v = .ok a) (itemsUnder name entries) as := by
    unfold defaulted at h
    unfold itemsUnder
    split at h
    · next v hv =>
      rw [within_eq_ok] at h
      rw [hv]
      cases v with
      | list items => exact eachFrom_eq_ok.1 h
      | null | bool | int | float | text | map => cases h
    · next hnone =>
      rw [hnone]
      cases h
      exact .nil
  rw [defaulted, appended, find?_put_self]
  exact within_eq_ok.2 (eachFrom_eq_ok.2 (List.rel_append has hitems))

end Fields

end AbnfCompiler.Data
