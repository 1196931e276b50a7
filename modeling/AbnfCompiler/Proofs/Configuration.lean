import AbnfCompiler.Configuration
import AbnfCompiler.Proofs.Data.Check
import AbnfCompiler.Proofs.Expression.SpelledOut
import AbnfCompiler.Proofs.Path

/-!
What comes of a list of grammars. Each entry is described by its configuration, or the file is to
blame, unless an entry has a value of the wrong kind in the place of a path or of a key: paths are
resolved, and keys are taken for names of fields, before the fields are checked.
-/
namespace AbnfCompiler.Configuration

open Data Checked Expression

variable {file : Path} {name : String} {index : Nat} {entries entries' : List (Value × Value)}
  {v : Value} {vs : List Value} {c : Configuration} {cs : List Configuration} {e : Error}

section Resolved

/-- The value under a name is neither a text nor nothing. -/
def Misplaced (name : String) (entries : List (Value × Value)) : Prop :=
  ∃ v, Value.find? name entries = some v ∧ v ≠ .null ∧ ∀ s, v ≠ .text s

/-- A text as the path that it is, seen from the folder of a file. -/
def seen (file : Path) : Value → Value
  | .text s => .text (file.parent.join (.ofText s)).toText
  | v => v

/-- The entries with the path under a name seen from the folder of a file. -/
structure Resolved (file : Path) (name : String) (entries entries' : List (Value × Value)) :
    Prop where
  self : Value.find? name entries' = (Value.find? name entries).map (seen file)
  others : ∀ other, other ≠ name → Value.find? other entries' = Value.find? other entries
  keys : hasTextKeys entries' = hasTextKeys entries

theorem hasTextKeys_put (key : String) (value : Value) :
    hasTextKeys (Value.put (.text key) value entries) = hasTextKeys entries := by
  induction entries with
  | nil => rfl
  | cons entry entries ih =>
    rw [Value.put]
    split
    · rfl
    · simp only [hasTextKeys, List.all_cons] at ih ⊢
      rw [ih]

theorem Resolved.put (h : Value.find? name entries = some v) :
    Resolved file name entries (Value.put (.text name) (seen file v) entries) where
  self := by rw [Value.find?_put_self, h, Option.map_some]
  others _ hother := Value.find?_put_ne hother
  keys := hasTextKeys_put name _

theorem resolvedField_of_misplaced (h : Misplaced name entries) :
    resolvedField file name entries = .error .wrongKind := by
  obtain ⟨v, hfind, hnull, htext⟩ := h
  rw [resolvedField, hfind]
  cases v with
  | null => exact absurd rfl hnull
  | text s => exact absurd rfl (htext s)
  | bool | int | float | list | map => rfl

theorem exists_resolved (file : Path) (h : ¬ Misplaced name entries) :
    ∃ entries', resolvedField file name entries = .ok entries' ∧
      Resolved file name entries entries' := by
  cases hfind : Value.find? name entries with
  | none =>
    refine ⟨entries, by rw [resolvedField, hfind], ?_, fun _ _ ↦ rfl, rfl⟩
    rw [hfind, Option.map_none]
  | some v =>
    refine ⟨_, ?_, .put hfind⟩
    rw [resolvedField, hfind]
    cases v with
    | null | text => rfl
    | bool | int | float | list | map => exact absurd ⟨_, hfind, nofun, nofun⟩ h

theorem Resolved.misplaced_iff (h : Resolved file name entries entries') {other : String}
    (hother : other ≠ name) : Misplaced other entries' ↔ Misplaced other entries := by
  rw [Misplaced, Misplaced, h.others other hother]

theorem hasTextKeys_iff : hasTextKeys entries ↔ ∀ entry ∈ entries, ∃ s, entry.1 = .text s := by
  rw [hasTextKeys, List.all_eq_true]
  refine forall₂_congr fun ⟨key, _⟩ _ ↦ ?_
  cases key <;> simp

end Resolved

section Fields

/-- The fields of an entry are those of the configuration, with paths seen from the folder of the
file. -/
structure Describes (file : Path) (entries : List (Value × Value)) (c : Configuration) : Prop where
  keys : ∀ entry ∈ entries, ∃ s, entry.1 = .text s
  source : ∃ s, Value.find? "source" entries = some (.text s) ∧
    c.source = file.parent.join (.ofText s)
  start : Value.find? "start_rule" entries = some (.text c.start)
  name : defaulted entries "name" (nullable asText) none = .ok c.name
  withCore : defaulted entries "uses_core_rules" asTruth false = .ok c.withCore
  hidden : defaulted entries "hidden_rules" (asList asText) [] = .ok c.hidden
  inlined : defaulted entries "inline_rules" (asList asText) [] = .ok c.inlined
  conflicts : defaulted entries "conflicts" (asList (asList asText)) [] = .ok c.conflicts
  location : (∃ s, Value.find? "location" entries = some (.text s) ∧
      c.location = some (file.parent.join (.ofText s))) ∨
    (∀ v, Value.find? "location" entries = some v → v = .null) ∧ c.location = none

theorem ofEntries_eq_ok : ofEntries entries = .ok c ↔
    required entries "source" asPath = .ok c.source ∧
      required entries "start_rule" asText = .ok c.start ∧
      defaulted entries "name" (nullable asText) none = .ok c.name ∧
      defaulted entries "uses_core_rules" asTruth false = .ok c.withCore ∧
      defaulted entries "hidden_rules" (asList asText) [] = .ok c.hidden ∧
      defaulted entries "inline_rules" (asList asText) [] = .ok c.inlined ∧
      defaulted entries "conflicts" (asList (asList asText)) [] = .ok c.conflicts ∧
      defaulted entries "location" (nullable asPath) none = .ok c.location := by
  unfold ofEntries
  constructor
  · intro h
    obtain ⟨_, _, h₁, hlocation, rfl⟩ := seq_eq_ok.1 h
    obtain ⟨_, _, h₂, hconflicts, rfl⟩ := seq_eq_ok.1 h₁
    obtain ⟨_, _, h₃, hinlined, rfl⟩ := seq_eq_ok.1 h₂
    obtain ⟨_, _, h₄, hhidden, rfl⟩ := seq_eq_ok.1 h₃
    obtain ⟨_, _, h₅, hcore, rfl⟩ := seq_eq_ok.1 h₄
    obtain ⟨_, _, h₆, hname, rfl⟩ := seq_eq_ok.1 h₅
    obtain ⟨_, _, h₇, hstart, rfl⟩ := seq_eq_ok.1 h₆
    obtain ⟨_, hsource, rfl⟩ := map_eq_ok.1 h₇
    exact ⟨hsource, hstart, hname, hcore, hhidden, hinlined, hconflicts, hlocation⟩
  · rintro ⟨hsource, hstart, hname, hcore, hhidden, hinlined, hconflicts, hlocation⟩
    rw [hsource, hstart, hname, hcore, hhidden, hinlined, hconflicts, hlocation]
    rfl

/-- A path that was resolved is read back as the path that it is. -/
theorem asPath_seen (fileName s : String) :
    asPath (seen (.ofText fileName) (.text s))
      = .ok ((Path.ofText fileName).parent.join (.ofText s)) := by
  have hproper : ((Path.ofText fileName).parent.join (.ofText s)).IsProper :=
    (Path.isProper_ofText fileName).parent.join (Path.isProper_ofText s)
  rw [seen, asPath, Path.ofText_toText hproper]

theorem required_iff_of_resolved {fileName : String} {p : Path}
    (h : Resolved (.ofText fileName) name entries entries') :
    required entries' name asPath = .ok p ↔ ∃ s, Value.find? name entries = some (.text s) ∧
      p = (Path.ofText fileName).parent.join (.ofText s) := by
  rw [required, within_eq_ok, h.self]
  cases Value.find? name entries with
  | none => simp [fail]
  | some v =>
    cases v with
    | text s =>
      rw [Option.map_some]
      simp only [asPath_seen]
      simp [@eq_comm _ p]
    | null | bool | int | float | list | map => simp [seen, asPath, fail]

theorem defaulted_iff_of_resolved {fileName : String} {p : Option Path}
    (h : Resolved (.ofText fileName) name entries entries') :
    defaulted entries' name (nullable asPath) none = .ok p ↔
      (∃ s, Value.find? name entries = some (.text s) ∧
        p = some ((Path.ofText fileName).parent.join (.ofText s))) ∨
      (∀ v, Value.find? name entries = some v → v = .null) ∧ p = none := by
  rw [defaulted, h.self]
  cases Value.find? name entries with
  | none => simp [@eq_comm _ p]
  | some v =>
    rw [Option.map_some]
    simp only [within_eq_ok]
    cases v with
    | null => simp [seen, nullable, @eq_comm _ p]
    | text s =>
      change some <$> asPath (seen (.ofText fileName) (.text s)) = _ ↔ _
      rw [asPath_seen, map_eq_ok]
      simp [@eq_comm _ p]
    | bool | int | float | list | map => simp [seen, nullable, asPath, fail, map_eq_ok]

theorem required_text_iff {s : String} :
    required entries name asText = .ok s ↔ Value.find? name entries = some (.text s) := by
  rw [required, within_eq_ok]
  cases Value.find? name entries with
  | none => simp [fail]
  | some v => cases v <;> simp [asText, fail]

theorem ofEntries_iff_describes {fileName : String} {entries₁ entries₂ : List (Value × Value)}
    (hsource : Resolved (.ofText fileName) "source" entries entries₁)
    (hlocation : Resolved (.ofText fileName) "location" entries₁ entries₂)
    (hkeys : hasTextKeys entries) :
    ofEntries entries₂ = .ok c ↔ Describes (.ofText fileName) entries c := by
  have hfind {name : String} (h₁ : name ≠ "source") (h₂ : name ≠ "location") :
      Value.find? name entries₂ = Value.find? name entries :=
    (hlocation.others name h₂).trans (hsource.others name h₁)
  have hstart : required entries₂ "start_rule" asText = .ok c.start ↔
      Value.find? "start_rule" entries = some (.text c.start) := by
    rw [required_congr (hfind (by decide) (by decide)), required_text_iff]
  rw [ofEntries_eq_ok, required_congr (hlocation.others _ (by decide)),
    required_iff_of_resolved hsource, hstart, defaulted_congr (hfind (by decide) (by decide)),
    defaulted_congr (hfind (by decide) (by decide)),
    defaulted_congr (hfind (by decide) (by decide)),
    defaulted_congr (hfind (by decide) (by decide)),
    defaulted_congr (hfind (by decide) (by decide)), defaulted_iff_of_resolved hlocation,
    hsource.others "location" (by decide)]
  constructor
  · rintro ⟨hsource, hstart, hname, hcore, hhidden, hinlined, hconflicts, hlocation⟩
    exact ⟨hasTextKeys_iff.1 hkeys, hsource, hstart, hname, hcore, hhidden, hinlined, hconflicts,
      hlocation⟩
  · intro h
    exact ⟨h.source, h.start, h.name, h.withCore, h.hidden, h.inlined, h.conflicts, h.location⟩

end Fields

section Entry

/-- An entry with the required fields has a path that is neither a text nor nothing, or a key that
is no text. -/
def Mistyped (v : Value) : Prop :=
  ∃ entries, v = .map entries ∧
    (∀ field ∈ requiredFields, ∃ v, Value.find? field entries = some v) ∧
    (Misplaced "source" entries ∨ Misplaced "location" entries ∨
      ∃ entry ∈ entries, ∀ s, entry.1 ≠ .text s)

/-- The configuration describes the entry. -/
def IsDescribedBy (file : Path) (v : Value) (c : Configuration) : Prop :=
  ∃ entries, v = .map entries ∧ Describes file entries c

/-- What is made of the fields of an entry when they have been checked. -/
def judged (file : Path) (index : Nat) : Checked Configuration → Except Error Configuration
  | .ok c => .ok c
  | .issues found => .error (.invalid index file found)

theorem ofEntry_map (h : ∀ field ∈ requiredFields, ∃ v, Value.find? field entries = some v) :
    ofEntry file index (.map entries) = (do
      let entries₁ ← resolvedField file "source" entries
      let entries₂ ← resolvedField file "location" entries₁
      if hasTextKeys entries₂ then judged file index (ofEntries entries₂)
      else .error .wrongKind) := by
  have hnone : requiredFields.find? (fun field ↦ (Value.find? field entries).isNone) = none := by
    rw [List.find?_eq_none]
    intro field hfield
    obtain ⟨v, hv⟩ := h field hfield
    simp [hv]
  rw [ofEntry, hnone]
  rfl

theorem ofEntry_missing (file : Path) (index : Nat) {field : String} (h : field ∈ requiredFields)
    (hnone : Value.find? field entries = none) :
    ∃ field', ofEntry file index (.map entries) = .error (.missing field' index file) := by
  cases hfind : requiredFields.find? fun field ↦ (Value.find? field entries).isNone with
  | none => simpa [hnone] using List.find?_eq_none.1 hfind field h
  | some field' => exact ⟨field', by rw [ofEntry, hfind]⟩

theorem ofEntry_of_misplaced (h : Misplaced "source" entries ∨ Misplaced "location" entries)
    (hrequired : ∀ field ∈ requiredFields, ∃ v, Value.find? field entries = some v) :
    ofEntry file index (.map entries) = .error .wrongKind := by
  rw [ofEntry_map hrequired]
  by_cases hsource : Misplaced "source" entries
  · rw [resolvedField_of_misplaced hsource]
    rfl
  · obtain ⟨entries₁, hentries₁, hresolved⟩ := exists_resolved file hsource
    have hlocation := h.resolve_left hsource
    rw [← hresolved.misplaced_iff (by decide)] at hlocation
    rw [hentries₁]
    change resolvedField file "location" entries₁ >>= _ = _
    rw [resolvedField_of_misplaced hlocation]
    rfl

theorem ofEntry_of_not_misplaced (file : Path) (index : Nat)
    (hsource : ¬ Misplaced "source" entries) (hlocation : ¬ Misplaced "location" entries)
    (hrequired : ∀ field ∈ requiredFields, ∃ v, Value.find? field entries = some v) :
    ∃ entries₁ entries₂, Resolved file "source" entries entries₁ ∧
      Resolved file "location" entries₁ entries₂ ∧
      ofEntry file index (.map entries) =
        if hasTextKeys entries then judged file index (ofEntries entries₂)
        else .error .wrongKind := by
  obtain ⟨entries₁, hentries₁, hresolved₁⟩ := exists_resolved file hsource
  rw [← hresolved₁.misplaced_iff (by decide)] at hlocation
  obtain ⟨entries₂, hentries₂, hresolved₂⟩ := exists_resolved file hlocation
  refine ⟨entries₁, entries₂, hresolved₁, hresolved₂, ?_⟩
  rw [ofEntry_map hrequired, hentries₁]
  change resolvedField file "location" entries₁ >>= _ = _
  rw [hentries₂, ← hresolved₁.keys, ← hresolved₂.keys]
  rfl

theorem ofEntry_of_mistyped (h : Mistyped v) : ofEntry file index v = .error .wrongKind := by
  obtain ⟨entries, rfl, hrequired, hwrong⟩ := h
  by_cases hpath : Misplaced "source" entries ∨ Misplaced "location" entries
  · exact ofEntry_of_misplaced hpath hrequired
  · obtain ⟨hsource, hlocation⟩ := not_or.1 hpath
    obtain ⟨entry, hentry, hkey⟩ := (hwrong.resolve_left hsource).resolve_left hlocation
    obtain ⟨_, _, -, -, heq⟩ := ofEntry_of_not_misplaced file index hsource hlocation hrequired
    have hkeys : ¬ hasTextKeys entries := by
      rw [hasTextKeys_iff]
      intro hall
      obtain ⟨s, hs⟩ := hall entry hentry
      exact hkey s hs
    rw [heq, if_neg hkeys]

theorem Describes.required (h : Describes file entries c) :
    ∀ field ∈ requiredFields, ∃ v, Value.find? field entries = some v := by
  obtain ⟨s, hsource, -⟩ := h.source
  simp [requiredFields, hsource, h.start]

theorem Describes.not_misplaced (h : Describes file entries c) :
    ¬ Misplaced "source" entries ∧ ¬ Misplaced "location" entries := by
  constructor
  · rintro ⟨v, hv, -, htext⟩
    obtain ⟨s, hs, -⟩ := h.source
    exact htext s (Option.some.inj (hv.symm.trans hs))
  · rintro ⟨v, hv, hnull, htext⟩
    obtain ⟨s, hs, -⟩ | ⟨hall, -⟩ := h.location
    · exact htext s (Option.some.inj (hv.symm.trans hs))
    · exact hnull (hall v hv)

theorem IsDescribedBy.not_mistyped (h : IsDescribedBy file v c) : ¬ Mistyped v := by
  obtain ⟨entries, rfl, hentries⟩ := h
  rintro ⟨_, heq, -, hwrong⟩
  obtain rfl := Value.map.inj heq
  obtain ⟨hsource, hlocation⟩ := hentries.not_misplaced
  obtain ⟨entry, hentry, hkey⟩ := (hwrong.resolve_left hsource).resolve_left hlocation
  obtain ⟨s, hs⟩ := hentries.keys entry hentry
  exact hkey s hs

/-- The configuration that describes an entry, or an error of the file if there is none. -/
structure Settles (file : Path) (v : Value) (x : Except Error Configuration) : Prop where
  ok : ∀ c, x = .ok c ↔ IsDescribedBy file v c
  error : ∀ e, x = .error e → e.isDeclared

theorem settles_error (he : e.isDeclared) (h : ∀ c, ¬ IsDescribedBy file v c) :
    Settles file v (.error e) where
  ok c := iff_of_false nofun (h c)
  error e' he' := by
    rwa [← Except.error.inj he']

theorem isDescribedBy_map : IsDescribedBy file (.map entries) c ↔ Describes file entries c := by
  constructor
  · rintro ⟨_, heq, h⟩
    rwa [Value.map.inj heq]
  · intro h
    exact ⟨entries, rfl, h⟩

theorem settles_checked {x : Checked Configuration}
    (h : ∀ c, x = .ok c ↔ Describes file entries c) :
    Settles file (.map entries) (judged file index x) := by
  cases x with
  | ok c =>
    refine ⟨fun c' ↦ ?_, nofun⟩
    rw [isDescribedBy_map, ← h, judged, Except.ok.injEq, Checked.ok.injEq]
  | issues found =>
    refine settles_error rfl fun c hc ↦ ?_
    cases (h c).2 (isDescribedBy_map.1 hc)

variable {fileName : String}

theorem settles_ofEntry (h : ¬ Mistyped v) :
    Settles (.ofText fileName) v (ofEntry (.ofText fileName) index v) := by
  cases v with
  | null | bool | int | float | text | list =>
    refine settles_error rfl fun c hc ↦ ?_
    obtain ⟨_, heq, -⟩ := hc
    cases heq
  | map entries =>
    by_cases hrequired : ∀ field ∈ requiredFields, ∃ v, Value.find? field entries = some v
    · have hright : ¬ (Misplaced "source" entries ∨ Misplaced "location" entries ∨
          ∃ entry ∈ entries, ∀ s, entry.1 ≠ .text s) :=
        fun hwrong ↦ h ⟨entries, rfl, hrequired, hwrong⟩
      simp only [not_or, not_exists, not_and, not_forall, not_not] at hright
      obtain ⟨hsource, hlocation, hkeys⟩ := hright
      obtain ⟨entries₁, entries₂, hresolved₁, hresolved₂, heq⟩ :=
        ofEntry_of_not_misplaced (.ofText fileName) index hsource hlocation hrequired
      rw [← hasTextKeys_iff] at hkeys
      rw [heq, if_pos hkeys]
      exact settles_checked fun c ↦ ofEntries_iff_describes hresolved₁ hresolved₂ hkeys
    · simp only [not_forall, not_exists] at hrequired
      obtain ⟨field, hfield, hnone⟩ := hrequired
      obtain ⟨field', heq⟩ := ofEntry_missing (.ofText fileName) index hfield
        (Option.eq_none_iff_forall_ne_some.2 hnone)
      rw [heq]
      refine settles_error rfl fun c hc ↦ ?_
      obtain ⟨v, hv⟩ := (isDescribedBy_map.1 hc).required field hfield
      exact hnone v hv

theorem ofEntry_eq_ok : ofEntry (.ofText fileName) index v = .ok c ↔
    IsDescribedBy (.ofText fileName) v c := by
  by_cases h : Mistyped v
  · rw [ofEntry_of_mistyped h]
    exact iff_of_false nofun fun hc ↦ hc.not_mistyped h
  · exact (settles_ofEntry h).ok c

end Entry

section List

variable {fileName : String}

theorem ofItems_eq_ok : ofItems (.ofText fileName) index vs = .ok cs ↔
    List.Forall₂ (IsDescribedBy (.ofText fileName)) vs cs := by
  induction vs generalizing index cs with
  | nil =>
    rw [List.forall₂_nil_left_iff, ofItems]
    exact ⟨fun h ↦ by cases h; rfl, fun h ↦ by rw [h]⟩
  | cons v vs ih =>
    rw [ofItems, List.forall₂_cons_left_iff]
    simp only [except_bind_eq_ok, ofEntry_eq_ok, ih]
    constructor
    · rintro ⟨c, hc, cs', hcs, h⟩
      cases h
      exact ⟨c, cs', hc, hcs, rfl⟩
    · rintro ⟨c, cs', hc, hcs, rfl⟩
      exact ⟨c, hc, cs', hcs, rfl⟩

theorem ofItems_eq_error : ofItems (.ofText fileName) index vs = .error e ↔
    ∃ before v after, vs = before ++ v :: after ∧
      (∀ w ∈ before, ∃ c, IsDescribedBy (.ofText fileName) w c) ∧
      ofEntry (.ofText fileName) (index + before.length) v = .error e := by
  induction vs generalizing index with
  | nil =>
    refine iff_of_false nofun ?_
    rintro ⟨before, v, after, hvs, -⟩
    simp at hvs
  | cons w vs ih =>
    simp only [List.cons_eq_append_iff]
    cases hw : ofEntry (.ofText fileName) index w with
    | error e' =>
      rw [ofItems, hw]
      constructor
      · intro h
        cases h
        exact ⟨[], w, vs, Or.inl ⟨rfl, rfl⟩, nofun, hw⟩
      · rintro ⟨_, v, after, ⟨rfl, heq⟩ | ⟨before, rfl, -⟩, hbefore, hv⟩
        · obtain ⟨rfl, -⟩ := List.cons.inj heq
          cases hw.symm.trans hv
          rfl
        · obtain ⟨c, hc⟩ := hbefore w List.mem_cons_self
          cases hw.symm.trans (ofEntry_eq_ok.2 hc)
    | ok c =>
      have hshift (before : List Value) :
          index + (w :: before).length = index + 1 + before.length := by
        rw [List.length_cons]
        omega
      have htail : ofItems (.ofText fileName) index (w :: vs) = .error e ↔
          ofItems (.ofText fileName) (index + 1) vs = .error e := by
        rw [ofItems, hw]
        change (ofItems _ _ vs >>= _) = _ ↔ _
        cases ofItems (.ofText fileName) (index + 1) vs with
        | ok cs => exact iff_of_false nofun nofun
        | error e' => rfl
      rw [htail, ih]
      constructor
      · rintro ⟨before, v, after, hvs, hbefore, hv⟩
        refine ⟨w :: before, v, after, Or.inr ⟨before, rfl, hvs⟩, ?_, by rwa [hshift]⟩
        exact List.forall_mem_cons.2 ⟨⟨c, ofEntry_eq_ok.1 hw⟩, hbefore⟩
      · rintro ⟨_, v, after, ⟨rfl, heq⟩ | ⟨before, rfl, hvs⟩, hbefore, hv⟩
        · obtain ⟨rfl, -⟩ := List.cons.inj heq
          cases hw.symm.trans hv
        · rw [hshift] at hv
          exact ⟨before, v, after, hvs, (List.forall_mem_cons.1 hbefore).2, hv⟩

end List

section Document

variable {fileName : String}

/-- The document lists an entry with a value of the wrong kind, after entries that are described by
their configurations. -/
inductive Stumbles (file : Path) (v : Value) : Prop
  | intro {before after : List Value} {w : Value} : itemsOf file v = .ok (before ++ w :: after) →
      (∀ u ∈ before, ∃ c, IsDescribedBy file u c) → Mistyped w → Stumbles file v

/-- The result has a configuration for each entry that the document lists, in this order, or it is
an error of the file. -/
def EndsAsDeclared (file : Path) (v : Value) (x : Except Error (List Configuration)) : Prop :=
  (∃ items cs, itemsOf file v = .ok items ∧ x = .ok cs ∧
      List.Forall₂ (IsDescribedBy file) items cs) ∨
    ∃ e, x = .error e ∧ e.isDeclared

theorem result_ofDocument : (ofDocument file v).result = itemsOf file v >>= ofItems file 0 := by
  unfold ofDocument
  cases h : itemsOf file v >>= ofItems file 0 with
  | ok cs => exact congrArg Traced.result (Traced.bind_ok rfl _)
  | error e => exact congrArg Traced.result (Traced.bind_error rfl _)

theorem result_of_stumbles (h : Stumbles (.ofText fileName) v) :
    (ofDocument (.ofText fileName) v).result = .error .wrongKind := by
  obtain ⟨hitems, hbefore, hw⟩ := h
  rw [result_ofDocument, hitems]
  exact ofItems_eq_error.2 ⟨_, _, _, rfl, hbefore, ofEntry_of_mistyped hw⟩

theorem isDeclared_of_itemsOf (h : itemsOf file v = .error e) : e.isDeclared := by
  cases htruthy : v.isTruthy with
  | false => simp [itemsOf, htruthy] at h
  | true =>
    simp only [itemsOf, htruthy, Bool.not_true, Bool.false_eq_true, ↓reduceIte] at h
    cases v with
    | list items => cases h
    | map entries =>
      dsimp only at h
      generalize (Value.find? "grammars" entries).getD (.list []) = items at h
      cases items <;> cases h
      all_goals rfl
    | null | bool | int | float | text =>
      cases h
      rfl

theorem endsAsDeclared_or_stumbles (fileName : String) (v : Value) :
    EndsAsDeclared (.ofText fileName) v (ofDocument (.ofText fileName) v).result ∨
      Stumbles (.ofText fileName) v := by
  rw [result_ofDocument]
  cases hitems : itemsOf (.ofText fileName) v with
  | error e => exact Or.inl (Or.inr ⟨e, rfl, isDeclared_of_itemsOf hitems⟩)
  | ok items =>
    change EndsAsDeclared _ _ (ofItems _ 0 items) ∨ _
    cases hcs : ofItems (.ofText fileName) 0 items with
    | ok cs => exact Or.inl (Or.inl ⟨items, cs, hitems, rfl, ofItems_eq_ok.1 hcs⟩)
    | error e =>
      obtain ⟨before, w, after, rfl, hbefore, hw⟩ := ofItems_eq_error.1 hcs
      by_cases hmistyped : Mistyped w
      · exact Or.inr (.intro hitems hbefore hmistyped)
      · exact Or.inl (Or.inr ⟨e, rfl, (settles_ofEntry hmistyped).error e hw⟩)

theorem load_eq_ofDocument {files : Workspace} {text : String} (hholds : files.holds file)
    (hread : files.read file = .ok text) (hvalue : Yaml.read? text = some v) :
    load files file = ofDocument file v := by
  simp [load, hholds, hread, hvalue]

theorem not_endsAsDeclared_wrongKind : ¬ EndsAsDeclared file v (.error .wrongKind) := by
  rintro (⟨_, _, -, h, -⟩ | ⟨e, h, hdeclared⟩)
  · cases h
  · cases h
    cases hdeclared

/-- A document is loaded with one configuration for each entry, or refused with an error of the
file, exactly if it does not stumble over the kind of a value; and so is a file that holds it. -/
theorem endsAsDeclared_iff (fileName : String) :
    (∀ v, EndsAsDeclared (.ofText fileName) v (ofDocument (.ofText fileName) v).result ↔
      ¬ Stumbles (.ofText fileName) v) ∧
    ∀ (files : Workspace) text v, files.holds (.ofText fileName) →
      files.read (.ofText fileName) = .ok text → Yaml.read? text = some v →
      (EndsAsDeclared (.ofText fileName) v (load files (.ofText fileName)).result ↔
        ¬ Stumbles (.ofText fileName) v) := by
  have hdocument (v : Value) :
      EndsAsDeclared (.ofText fileName) v (ofDocument (.ofText fileName) v).result ↔
        ¬ Stumbles (.ofText fileName) v := by
    refine ⟨fun hends hstumbles ↦ ?_, (endsAsDeclared_or_stumbles fileName v).resolve_right⟩
    rw [result_of_stumbles hstumbles] at hends
    exact not_endsAsDeclared_wrongKind hends
  refine ⟨hdocument, fun files text v hholds hread hvalue ↦ ?_⟩
  rw [load_eq_ofDocument hholds hread hvalue]
  exact hdocument v

section Instances

def workspaceOf (text : String) : Workspace where
  files := [(["grammars.yaml", "workspace"], text)]

def entryOf (source : Value) : Value :=
  .map [(.text "source", source), (.text "start_rule", .text "a")]

def tokensOf (source : String) : List Yaml.Token :=
  [.openList, .openMap, .key, .plain "source", .value, .plain source, .comma, .key,
    .plain "start_rule", .value, .plain "a", .closeMap, .closeList]

theorem read?_of_tokens {text : String} {ts : List Yaml.Token}
    (htokens : Yaml.Token.ofText? text = some ts) (hvalue : Yaml.ofTokens? ts = some v) :
    Yaml.read? text = some v := by
  rw [Yaml.read?, htokens]
  exact hvalue

def plainText : String := "[{source: a.abnf, start_rule: a}]"

theorem endsAsDeclared_plainText :
    (workspaceOf plainText).holds (.ofText "grammars.yaml") ∧
      Yaml.read? plainText = some (.list [entryOf (.text "a.abnf")]) ∧
      ¬ Stumbles (.ofText "grammars.yaml") (.list [entryOf (.text "a.abnf")]) ∧
      EndsAsDeclared (.ofText "grammars.yaml") (.list [entryOf (.text "a.abnf")])
        (load (workspaceOf plainText) (.ofText "grammars.yaml")).result := by
  have htokens : Yaml.Token.ofText? plainText = some (tokensOf "a.abnf") := by decide +kernel
  have hvalue : Yaml.read? plainText = some (.list [entryOf (.text "a.abnf")]) :=
    read?_of_tokens htokens rfl
  have hok : ofEntry (.ofText "grammars.yaml") 0 (entryOf (.text "a.abnf"))
      = .ok { source := .ofText "a.abnf", start := "a" } := rfl
  have hplain : ¬ Stumbles (.ofText "grammars.yaml") (.list [entryOf (.text "a.abnf")]) := by
    rintro @⟨before, after, w, hitems, -, hw⟩
    have hsingle : [entryOf (.text "a.abnf")] = before ++ w :: after := Except.ok.inj hitems
    have hmem : w ∈ [entryOf (.text "a.abnf")] := by
      rw [hsingle]
      exact List.mem_append_cons_self
    rw [List.mem_singleton.1 hmem] at hw
    exact (ofEntry_eq_ok.1 hok).not_mistyped hw
  exact ⟨rfl, hvalue, hplain,
    ((endsAsDeclared_iff "grammars.yaml").2 _ _ _ rfl rfl hvalue).2 hplain⟩

def numberedText : String := "[{source: 5, start_rule: a}]"

/-- The source of a grammar is a number. -/
theorem not_endsAsDeclared_numberedText :
    (workspaceOf numberedText).holds (.ofText "grammars.yaml") ∧
      Yaml.read? numberedText = some (.list [entryOf (.int 5)]) ∧
      ¬ EndsAsDeclared (.ofText "grammars.yaml") (.list [entryOf (.int 5)])
        (load (workspaceOf numberedText) (.ofText "grammars.yaml")).result := by
  have htokens : Yaml.Token.ofText? numberedText = some (tokensOf "5") := by decide +kernel
  have hvalue : Yaml.read? numberedText = some (.list [entryOf (.int 5)]) :=
    read?_of_tokens htokens rfl
  refine ⟨rfl, hvalue, ?_⟩
  rw [load_eq_ofDocument rfl rfl hvalue]
  exact not_endsAsDeclared_wrongKind

end Instances

end Document

end AbnfCompiler.Configuration
