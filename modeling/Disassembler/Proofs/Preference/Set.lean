import Disassembler.Proofs.Preference.Kind

/-!
# Preferences that are set again and again

Setting a preference changes nothing but its content, and that only to content that is
accepted.  So what becomes of a value does not depend on what was set before.
-/

namespace Disassembler

/-! ## One preference -/

namespace Preference

variable {α : Type} {p q r : Preference α}

/-- What a preference can become by being set. -/
structure Evolves (p q : Preference α) : Prop where
  kind : q.kind = p.kind
  before : q.before = p.before
  after : q.after = p.after
  content : q.content = p.content ∨ check p.before q.content = none

theorem Evolves.refl (p : Preference α) : p.Evolves p :=
  ⟨rfl, rfl, rfl, Or.inl rfl⟩

theorem Evolves.trans (h : p.Evolves q) (h' : q.Evolves r) : p.Evolves r where
  kind := h'.kind.trans h.kind
  before := h'.before.trans h.before
  after := h'.after.trans h.after
  content := by
    rcases h'.content with hsame | hcheck
    · rw [hsame]
      exact h.content
    · right
      rw [← h.before]
      exact hcheck

theorem evolves_set (p : Preference α) (v : Value) : p.Evolves (p.set v).preference := by
  rcases p.set_cases v with hset | ⟨content, _, hcheck, hset⟩
  · rw [hset]
    exact .refl p
  · rw [hset]
    exact ⟨rfl, rfl, rfl, Or.inr hcheck⟩

theorem fault_set (p : Preference α) (v : Value) :
    (p.set v).fault =
      match p.kind.read v with
      | .error f => some f
      | .ok content => (check p.before content).or (check p.after content) := by
  rw [set]
  cases p.kind.read v with
  | error f => rfl
  | ok content =>
      simp only [store]
      cases check p.before content with
      | some f => rfl
      | none => rfl

/-- Whether a value is accepted does not depend on the content. -/
theorem Evolves.fault_set_eq (h : p.Evolves q) (v : Value) : (q.set v).fault = (p.set v).fault := by
  rw [fault_set, fault_set, h.kind, h.before, h.after]

/-- Nor does what a value that is accepted makes of the preference. -/
theorem Evolves.set_preference_eq (h : p.Evolves q) {v : Value} (hv : (p.set v).fault = none) :
    (q.set v).preference = (p.set v).preference := by
  rcases q with ⟨kind, content, before, after⟩
  rcases h with ⟨rfl, rfl, rfl, _⟩
  rw [fault_set] at hv
  rw [set, set]
  cases hread : p.kind.read v with
  | error f =>
      rw [hread] at hv
      cases hv
  | ok content =>
      rw [hread] at hv
      simp only [store, (Option.or_eq_none_iff.1 hv).1]

end Preference

/-! ## Entries of a store -/

namespace PreferenceEntry

/-- What an entry can become by being set. -/
inductive Evolves : PreferenceEntry -> PreferenceEntry -> Prop where
  | switch {p q : Preference Bool} : p.Evolves q -> Evolves (.switch p) (.switch q)
  | number {p q : Preference Int} : p.Evolves q -> Evolves (.number p) (.number q)
  | real {p q : Preference Binary} : p.Evolves q -> Evolves (.real p) (.real q)
  | phrase {p q : Preference String} : p.Evolves q -> Evolves (.phrase p) (.phrase q)
  | generic {p q : Preference Value} : p.Evolves q -> Evolves (.generic p) (.generic q)

variable {e f g : PreferenceEntry}

theorem Evolves.refl (e : PreferenceEntry) : e.Evolves e := by
  cases e with
  | switch p => exact .switch (.refl p)
  | number p => exact .number (.refl p)
  | real p => exact .real (.refl p)
  | phrase p => exact .phrase (.refl p)
  | generic p => exact .generic (.refl p)

theorem Evolves.trans (h : e.Evolves f) (h' : f.Evolves g) : e.Evolves g := by
  cases h with
  | switch h => cases h' with | switch h' => exact .switch (h.trans h')
  | number h => cases h' with | number h' => exact .number (h.trans h')
  | real h => cases h' with | real h' => exact .real (h.trans h')
  | phrase h => cases h' with | phrase h' => exact .phrase (h.trans h')
  | generic h => cases h' with | generic h' => exact .generic (h.trans h')

theorem Evolves.of_switch {p : Preference Bool} (h : (PreferenceEntry.switch p).Evolves f) :
    ∃ q, f = .switch q ∧ p.Evolves q := by
  cases h with | switch h => exact ⟨_, rfl, h⟩

theorem Evolves.of_number {p : Preference Int} (h : (PreferenceEntry.number p).Evolves f) :
    ∃ q, f = .number q ∧ p.Evolves q := by
  cases h with | number h => exact ⟨_, rfl, h⟩

theorem Evolves.of_phrase {p : Preference String} (h : (PreferenceEntry.phrase p).Evolves f) :
    ∃ q, f = .phrase q ∧ p.Evolves q := by
  cases h with | phrase h => exact ⟨_, rfl, h⟩

theorem evolves_set (e : PreferenceEntry) (v : Value) : e.Evolves (e.set v).2 := by
  cases e with
  | switch p => exact .switch (p.evolves_set v)
  | number p => exact .number (p.evolves_set v)
  | real p => exact .real (p.evolves_set v)
  | phrase p => exact .phrase (p.evolves_set v)
  | generic p => exact .generic (p.evolves_set v)

theorem Evolves.fault_set_eq (h : e.Evolves f) (v : Value) : (f.set v).1 = (e.set v).1 := by
  cases h with
  | switch h => exact h.fault_set_eq v
  | number h => exact h.fault_set_eq v
  | real h => exact h.fault_set_eq v
  | phrase h => exact h.fault_set_eq v
  | generic h => exact h.fault_set_eq v

theorem Evolves.set_eq (h : e.Evolves f) {v : Value} (hv : (e.set v).1 = none) :
    f.set v = e.set v := by
  refine Prod.ext (h.fault_set_eq v) ?_
  cases h with
  | switch h => exact congrArg PreferenceEntry.switch (h.set_preference_eq hv)
  | number h => exact congrArg PreferenceEntry.number (h.set_preference_eq hv)
  | real h => exact congrArg PreferenceEntry.real (h.set_preference_eq hv)
  | phrase h => exact congrArg PreferenceEntry.phrase (h.set_preference_eq hv)
  | generic h => exact congrArg PreferenceEntry.generic (h.set_preference_eq hv)

end PreferenceEntry

/-! ## All entries -/

namespace PreferenceStore

/-- What entries can become by being set, under the same keys. -/
def EntriesEvolve (entries entries' : Dictionary PreferenceEntry) : Prop :=
  List.Forall₂ (fun p q => q.1 = p.1 ∧ p.2.Evolves q.2) entries entries'

theorem EntriesEvolve.refl (entries : Dictionary PreferenceEntry) :
    EntriesEvolve entries entries :=
  List.forall₂_same.2 fun p _ => ⟨rfl, .refl p.2⟩

theorem evolves_setFrom (value? : Option String) (e : PreferenceEntry) :
    e.Evolves (setFrom value? e).2 := by
  cases value? with
  | none => exact .refl e
  | some s => exact e.evolves_set (.text s)

/-- Loading only sets entries, also where it fails. -/
theorem entriesEvolve_loadEntries (file : Dictionary String) (o : Overrides)
    (entries : Dictionary PreferenceEntry) :
    EntriesEvolve entries (loadEntries file o entries).2.1 := by
  induction entries generalizing o with
  | nil => exact .nil
  | cons p entries ih =>
      rcases p with ⟨key, e⟩
      have hfile := evolves_setFrom (file.find? key) e
      rw [loadEntries]
      rcases hset : setFrom (file.find? key) e with ⟨_ | f, e'⟩
      · rw [hset] at hfile
        have hoverride := evolves_setFrom (o.take key).1 e'
        simp only
        rcases hset' : setFrom (o.take key).1 e' with ⟨_ | f, e''⟩
        · rw [hset'] at hoverride
          exact .cons ⟨rfl, hfile.trans hoverride⟩ (ih _)
        · rw [hset'] at hoverride
          exact .cons ⟨rfl, hfile.trans hoverride⟩ (EntriesEvolve.refl entries)
      · rw [hset] at hfile
        exact .cons ⟨rfl, hfile⟩ (EntriesEvolve.refl entries)

theorem entriesEvolve_resetEntries (entries : Dictionary PreferenceEntry) :
    EntriesEvolve entries (resetEntries entries).2 := by
  induction entries with
  | nil => exact .nil
  | cons p entries ih =>
      rcases p with ⟨key, e⟩
      have hreset : e.Evolves e.reset.2 := e.evolves_set e.blank
      rw [resetEntries]
      rcases he : e.reset with ⟨_ | f, e'⟩
      · rw [he] at hreset
        exact .cons ⟨rfl, hreset⟩ ih
      · rw [he] at hreset
        exact .cons ⟨rfl, hreset⟩ (EntriesEvolve.refl entries)

end PreferenceStore
end Disassembler
