/-
Steps that may fail, one after another, and their faults in other words.  What a step does to a
state, whether it succeeds or not, is a relation between its beginning and its end.
-/
import Mathlib.Data.List.Forall2
import Mathlib.Order.Defs.Unbundled

namespace LiveFeed

section

variable {ε ε' α : Type}

theorem mapError_ok (reword : ε → ε') (a : α) :
    (Except.ok a : Except ε α).mapError reword = .ok a :=
  rfl

theorem mapError_error (reword : ε → ε') (fault : ε) :
    (Except.error fault : Except ε α).mapError reword = .error (reword fault) :=
  rfl

theorem mapError_eq_ok_iff {reword : ε → ε'} {x : Except ε α} {a : α} :
    x.mapError reword = .ok a ↔ x = .ok a := by
  cases x <;> simp [mapError_ok, mapError_error]

theorem mapError_eq_error_iff {reword : ε → ε'} {x : Except ε α} {fault : ε'} :
    x.mapError reword = .error fault ↔ ∃ cause, x = .error cause ∧ fault = reword cause := by
  cases x <;> simp [mapError_ok, mapError_error, eq_comm]

theorem toOption_eq_some_iff {x : Except ε α} {a : α} : x.toOption = some a ↔ x = .ok a := by
  cases x <;> simp [Except.toOption]

/-- Of two steps both succeed, or the whole does not. -/
theorem bind_eq_ok_iff {β : Type} {x : Except ε α} {next : α → Except ε β} {b : β} :
    (x >>= next) = .ok b ↔ ∃ a, x = .ok a ∧ next a = .ok b := by
  cases x <;> simp [bind, Except.bind]

/-- Of two steps that fail, the first one does, or the second one after it. -/
theorem bind_eq_error_iff {β : Type} {x : Except ε α} {next : α → Except ε β} {fault : ε} :
    (x >>= next) = .error fault ↔ x = .error fault ∨ ∃ a, x = .ok a ∧ next a = .error fault := by
  cases x <;> simp [bind, Except.bind]

/-- What is done to the items of a list succeeds for each of them. -/
theorem forall₂_of_mapM {β : Type} {f : α → Except ε β} {items : List α} {results : List β}
    (h : items.mapM f = .ok results) : List.Forall₂ (fun a b => f a = .ok b) items results := by
  induction items generalizing results with
  | nil =>
      cases h
      exact .nil
  | cons a rest ih =>
      rw [List.mapM_cons] at h
      obtain ⟨b, hb, h⟩ := bind_eq_ok_iff.mp h
      obtain ⟨others, hothers, h⟩ := bind_eq_ok_iff.mp h
      cases h
      exact .cons hb (ih hothers)

end

/-- The state in which a run ends, however it ends. -/
def ending {ε σ α : Type} : EStateM.Result ε σ α → σ
  | .ok _ s => s
  | .error _ s => s

section

variable {ε σ α β : Type} {act : EStateM ε σ α} {next : α → EStateM ε σ β} {s t : σ}

theorem bind_of_ok {a : α} (h : act s = .ok a t) : (act >>= next) s = next a t := by
  change EStateM.bind act next s = next a t
  rw [EStateM.bind, h]

theorem bind_of_error {fault : ε} (h : act s = .error fault t) :
    (act >>= next) s = .error fault t := by
  change EStateM.bind act next s = _
  rw [EStateM.bind, h]

theorem bind_get {next : σ → EStateM ε σ β} : ((get : EStateM ε σ σ) >>= next) s = next s s := rfl

/-- Two steps succeed together only if each of them does. -/
theorem exists_of_bind_ok {b : β} (h : (act >>= next) s = .ok b t) :
    ∃ a between, act s = .ok a between ∧ next a between = .ok b t := by
  cases hact : act s with
  | ok a between =>
      rw [bind_of_ok hact] at h
      exact ⟨a, between, rfl, h⟩
  | error fault between =>
      rw [bind_of_error hact] at h
      cases h

theorem tryCatch_of_ok {handle : ε → EStateM ε σ α} {a : α} (h : act s = .ok a t) :
    tryCatch act handle s = .ok a t := by
  change EStateM.tryCatch act handle s = _
  delta EStateM.tryCatch
  simp only [h]

/-- The handling of a fault begins where the step has stopped. -/
theorem tryCatch_of_error {handle : ε → EStateM ε σ α} {fault : ε} (h : act s = .error fault t) :
    tryCatch act handle s = handle fault t := by
  change EStateM.tryCatch act handle s = _
  delta EStateM.tryCatch
  simp only [h]
  rfl

end

/-- However a step ends, its beginning and its end are related. -/
def Leads {ε σ α : Type} (Related : σ → σ → Prop) (act : EStateM ε σ α) : Prop :=
  ∀ s, Related s (ending (act s))

section

variable {ε σ α β : Type} {Related : σ → σ → Prop}

theorem Leads.pure [Std.Refl Related] (a : α) : Leads Related (pure a : EStateM ε σ α) :=
  fun s => Std.Refl.refl s

theorem Leads.throw [Std.Refl Related] (fault : ε) :
    Leads Related (throw fault : EStateM ε σ α) :=
  fun s => Std.Refl.refl s

theorem Leads.get [Std.Refl Related] : Leads Related (get : EStateM ε σ σ) :=
  fun s => Std.Refl.refl s

theorem Leads.imp {Wider : σ → σ → Prop} {act : EStateM ε σ α} (h : Leads Related act)
    (hwider : ∀ s t, Related s t → Wider s t) : Leads Wider act :=
  fun s => hwider s _ (h s)

/-- What leads from step to step leads from the first to the last. -/
theorem Leads.bind [IsTrans σ Related] {act : EStateM ε σ α} {next : α → EStateM ε σ β}
    (hact : Leads Related act) (hnext : ∀ a, Leads Related (next a)) :
    Leads Related (act >>= next) := by
  intro s
  have hfirst := hact s
  cases hrun : act s with
  | ok a t =>
      rw [hrun] at hfirst
      rw [bind_of_ok hrun]
      exact IsTrans.trans s t _ hfirst (hnext a t)
  | error fault t =>
      rw [hrun] at hfirst
      rw [bind_of_error hrun]
      exact hfirst

end

/-- Whatever a step fails with is allowed. -/
def FailsOnly {ε σ α : Type} (Allowed : ε → Prop) (act : EStateM ε σ α) : Prop :=
  ∀ s fault t, act s = .error fault t → Allowed fault

section

variable {ε σ α β : Type} {Allowed : ε → Prop}

theorem FailsOnly.pure (a : α) : FailsOnly Allowed (pure a : EStateM ε σ α) := nofun

theorem FailsOnly.throw {fault : ε} (h : Allowed fault) :
    FailsOnly Allowed (throw fault : EStateM ε σ α) := by
  rintro s fault' t ⟨⟩
  exact h

theorem FailsOnly.get : FailsOnly Allowed (get : EStateM ε σ σ) := nofun

theorem FailsOnly.set (s : σ) : FailsOnly Allowed (set s : EStateM ε σ PUnit) := nofun

theorem FailsOnly.bind {act : EStateM ε σ α} {next : α → EStateM ε σ β}
    (hact : FailsOnly Allowed act) (hnext : ∀ a, FailsOnly Allowed (next a)) :
    FailsOnly Allowed (act >>= next) := by
  intro s fault t h
  cases hrun : act s with
  | ok a between =>
      rw [bind_of_ok hrun] at h
      exact hnext a between fault t h
  | error cause between =>
      rw [bind_of_error hrun] at h
      cases h
      exact hact s _ _ hrun

end

/-- Two runs that give the same, and end in related states. -/
inductive Abreast {ε σ α : Type} (Related : σ → σ → Prop) :
    EStateM.Result ε σ α → EStateM.Result ε σ α → Prop where
  | ok {a : α} {s t : σ} (hrelated : Related s t) : Abreast Related (.ok a s) (.ok a t)
  | error {fault : ε} {s t : σ} (hrelated : Related s t) :
      Abreast Related (.error fault s) (.error fault t)

theorem Abreast.bind {ε σ α β : Type} {Related : σ → σ → Prop} {act : EStateM ε σ α}
    {next : α → EStateM ε σ β} {s t : σ} (hact : Abreast Related (act s) (act t))
    (hnext : ∀ a s t, Related s t → Abreast Related (next a s) (next a t)) :
    Abreast Related ((act >>= next) s) ((act >>= next) t) := by
  generalize hs : act s = first at hact
  generalize ht : act t = second at hact
  cases hact with
  | ok hrelated =>
      rw [bind_of_ok hs, bind_of_ok ht]
      exact hnext _ _ _ hrelated
  | error hrelated =>
      rw [bind_of_error hs, bind_of_error ht]
      exact .error hrelated

end LiveFeed
