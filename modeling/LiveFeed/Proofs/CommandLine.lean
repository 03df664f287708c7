/-
What the arguments of a program cannot do.  A property of options that every switch and the operand
of a grammar keep holds of whatever is read, because nothing is taken for a switch that is not one
of the grammar.
-/
import LiveFeed.CommandLine
import LiveFeed.Proofs.Steps

namespace LiveFeed.CommandLine

variable {σ : Type}

/-- A switch keeps a property of options, whatever values it is given. -/
def Switch.Keeps (inv : σ → Prop) (switch : Switch σ) : Prop :=
  ∀ values s t, switch.store values s = .ok t → inv s → inv t

section

variable {inv : σ → Prop}

theorem Switch.keeps_help : Switch.Keeps inv (help : Switch σ) := nofun

theorem Switch.keeps_text (name : Text) {set : Option Text → σ → σ}
    (hset : ∀ text s, inv s → inv (set text s)) : (text name set).Keeps inv := by
  rintro values s _ ⟨⟩ hs
  exact hset values.head? s hs

theorem Switch.keeps_whole (name : Text) {set : Option Int → σ → σ}
    (hset : ∀ n s, inv s → inv (set n s)) : (whole name set).Keeps inv := by
  intro values s t hstore hs
  simp only [whole] at hstore
  split at hstore
  · cases hstore
    exact hset none s hs
  · split at hstore
    · cases hstore
      exact hset _ s hs
    · cases hstore

end

/-- An operand keeps a property of options, whatever arguments it is given. -/
def Operand.Keeps (inv : σ → Prop) (operand : Operand σ) : Prop :=
  ∀ texts s t leftOver, operand.store texts s = .ok (t, leftOver) → inv s → inv t

namespace Grammar

/-- The switches and the operand of a grammar keep a property of options. -/
structure Keeps (inv : σ → Prop) (grammar : Grammar σ) : Prop where
  switches : ∀ switch ∈ grammar.switches, switch.Keeps inv
  operand : ∀ operand, grammar.operand = some operand → operand.Keeps inv

variable {grammar : Grammar σ} {switch : Switch σ} {name : Text} {attached : Option Text}

theorem mem_of_names (h : (name, switch) ∈ grammar.names) : switch ∈ grammar.switches := by
  obtain ⟨other, hother, hname⟩ := List.mem_flatMap.mp h
  obtain ⟨_, -, heq⟩ := List.mem_map.mp hname
  cases heq
  exact hother

theorem mem_of_switch? (h : grammar.switch? name = some switch) : switch ∈ grammar.switches := by
  obtain ⟨⟨found, _⟩, hfound, rfl⟩ := Option.map_eq_some_iff.mp h
  exact mem_of_names (List.mem_of_find?_eq_some hfound)

theorem mem_of_candidates {text : Text} (h : (name, switch, attached) ∈ grammar.candidates text) :
    switch ∈ grammar.switches := by
  unfold candidates at h
  split at h
  · obtain ⟨⟨_, _⟩, hnames, heq⟩ := List.mem_map.mp h
    cases heq
    exact mem_of_names (List.mem_filter.mp hnames).1
  · obtain ⟨⟨_, _⟩, hnames, heq⟩ := List.mem_filterMap.mp h
    have hmem := mem_of_names hnames
    simp only [] at heq
    split at heq
    · cases heq
      exact hmem
    · split at heq
      · cases heq
        exact hmem
      · cases heq
  · contradiction

/-- What an argument is taken for is a switch of the grammar or none. -/
theorem mem_of_role {text : Text} (h : grammar.role text = .ok (.switch switch name attached)) :
    switch ∈ grammar.switches := by
  unfold role at h
  split at h
  · cases h
  · split at h
    · rename_i found hfound
      cases h
      exact mem_of_switch? hfound
    · split at h
      · cases h
      · simp only [] at h
        split at h
        · rename_i found _ hfound
          cases h
          exact mem_of_switch? hfound
        · split at h
          · rename_i hcandidates
            cases h
            exact mem_of_candidates (hcandidates ▸ List.mem_singleton_self _)
          · split at h <;> cases h
          · cases h

/-- The switches among some words are switches of the grammar. -/
def Belong (grammar : Grammar σ) (words : List (Word σ)) : Prop :=
  ∀ word ∈ words, ∀ switch name attached, word.role = .switch switch name attached →
    switch ∈ grammar.switches

variable {words rest : List (Word σ)}

theorem Belong.subset (h : grammar.Belong words) (hsubset : rest ⊆ words) :
    grammar.Belong rest :=
  fun word hword => h word (hsubset hword)

theorem belong_of_words {arguments : List Text} (h : grammar.words arguments = .ok words) :
    grammar.Belong words := by
  induction arguments generalizing words with
  | nil =>
      cases h
      nofun
  | cons text rest ih =>
      unfold Grammar.words at h
      split at h
      · cases h
        intro word hword switch name attached hrole
        rcases List.mem_cons.mp hword with rfl | hrest
        · cases hrole
        · obtain ⟨_, -, rfl⟩ := List.mem_map.mp hrest
          cases hrole
      · obtain ⟨role, hrole, h⟩ := bind_eq_ok_iff.mp h
        obtain ⟨later, hlater, h⟩ := bind_eq_ok_iff.mp h
        cases h
        intro word hword switch name attached hswitch
        rcases List.mem_cons.mp hword with rfl | hrest
        · exact mem_of_role (hrole.trans (congrArg Except.ok hswitch))
        · exact ih hlater word hrest switch name attached hswitch

theorem mem_of_cluster {letters : List CodePoint} {switches : List (Switch σ)}
    (hswitch : switch ∈ grammar.switches) (h : grammar.cluster switch letters = .ok switches) :
    ∀ other ∈ switches, other ∈ grammar.switches := by
  induction letters generalizing switch switches with
  | nil =>
      cases h
      simpa using hswitch
  | cons letter rest ih =>
      unfold cluster at h
      split at h
      · rename_i next hnext
        obtain ⟨later, hlater, h⟩ := bind_eq_ok_iff.mp h
        cases h
        exact List.forall_mem_cons.mpr ⟨hswitch, ih (mem_of_switch? hnext) hlater⟩
      · cases h

theorem mem_of_flags {value : Text} {switches : List (Switch σ)}
    (hswitch : switch ∈ grammar.switches) (h : grammar.flags switch name value = .ok switches) :
    ∀ other ∈ switches, other ∈ grammar.switches := by
  unfold flags at h
  split at h
  · cases h
  · exact mem_of_cluster hswitch h

variable {inv : σ → Prop} {p q : Progress σ}

/-- Switches that are set one after the other keep what each of them keeps. -/
theorem keeps_foldlM {switches : List (Switch σ)} (hkeeps : ∀ switch ∈ switches, switch.Keeps inv)
    {s t : σ} (h : switches.foldlM (fun options switch => switch.store [] options) s = .ok t)
    (hs : inv s) : inv t := by
  induction switches generalizing s with
  | nil =>
      cases h
      exact hs
  | cons first rest ih =>
      rw [List.foldlM_cons] at h
      obtain ⟨mid, hfirst, hrest⟩ := bind_eq_ok_iff.mp h
      obtain ⟨hkeep, hkeeps⟩ := List.forall_mem_cons.mp hkeeps
      exact ih hkeeps hrest (hkeep [] s mid hfirst hs)

/-- How reading goes on when the operand has had its chance: with what is left, or, if that is all
there was, with the first switch. -/
def readOn (grammar : Grammar σ) (fuel : Nat) (words : List (Word σ)) (p : Progress σ)
    (rest : List (Word σ)) : Except Fault (Progress σ) :=
  if rest.length < words.length then grammar.readWords fuel p rest
  else
    let leading := words.takeWhile fun word => !word.isSwitch
    let p := { p with extras := p.extras ++ leading.map (·.text) }
    match words.drop leading.length with
    | [] => .ok p
    | word :: rest =>
        match word.role with
        | .switch switch name attached => do
            let (p, rest) ← grammar.takeSwitch switch name attached p rest
            grammar.readWords fuel p rest
        | _ => grammar.readWords fuel { p with extras := p.extras ++ [word.text] } rest

theorem readWords_succ (fuel : Nat) (p : Progress σ) (words : List (Word σ)) :
    grammar.readWords (fuel + 1) p words =
      let leading := words.takeWhile fun word => !word.isSwitch
      if leading.length = words.length then do
        let (p, rest) ← Grammar.takeOperand p words
        return { p with extras := p.extras ++ rest.map (·.text) }
      else
        (if leading.isEmpty then .ok (p, words) else Grammar.takeOperand p words) >>=
          fun taken => grammar.readOn fuel words taken.1 taken.2 := by
  rw [Grammar.readWords]
  simp only []
  split
  · rfl
  · split <;> rfl

/-- What is still to come keeps the property: the operand, if it has not been taken, and the
switches among the words. -/
structure Pends (grammar : Grammar σ) (inv : σ → Prop) (p : Progress σ) (words : List (Word σ)) :
    Prop where
  options : inv p.options
  operand : ∀ operand, p.pending = some operand → operand.Keeps inv
  belong : grammar.Belong words

theorem Pends.takeOperand (h : grammar.Pends inv p words)
    (hrun : Grammar.takeOperand p words = .ok (q, rest)) :
    grammar.Pends inv q rest ∧ rest ⊆ words := by
  unfold Grammar.takeOperand at hrun
  split at hrun
  · cases hrun
    exact ⟨h, List.Subset.refl _⟩
  · rename_i operand hpending
    simp only [] at hrun
    split at hrun
    · cases hrun
      exact ⟨h, List.Subset.refl _⟩
    · obtain ⟨⟨options, leftOver⟩, hstore, heq⟩ := bind_eq_ok_iff.mp hrun
      cases heq
      have hsubset := List.drop_subset (operandSize operand words) words
      exact ⟨⟨h.operand operand hpending _ _ _ _ hstore h.options, nofun,
        h.belong.subset hsubset⟩, hsubset⟩

theorem Pends.takeSwitch (h : grammar.Pends inv p words) (hkeeps : grammar.Keeps inv)
    (hswitch : switch ∈ grammar.switches)
    (hrun : grammar.takeSwitch switch name attached p words = .ok (q, rest)) :
    grammar.Pends inv q rest := by
  -- All ways but one end in storing some values and going on behind them.
  have hstored {values : List Text} {behind : List (Word σ)} (hbehind : behind ⊆ words)
      (hstore : (do
          return ({ p with options := ← switch.store (values.erase dashes) p.options }, behind)) =
        (.ok (q, rest) : Except Fault _)) : grammar.Pends inv q rest := by
    obtain ⟨options, hoptions, heq⟩ := bind_eq_ok_iff.mp hstore
    cases heq
    exact ⟨hkeeps.switches switch hswitch _ _ _ hoptions h.options, h.operand,
      h.belong.subset hbehind⟩
  unfold Grammar.takeSwitch at hrun
  split at hrun
  · exact hstored (List.Subset.refl words) hrun
  · obtain ⟨switches, hflags, hrun⟩ := bind_eq_ok_iff.mp hrun
    obtain ⟨options, hoptions, heq⟩ := bind_eq_ok_iff.mp hrun
    cases heq
    have heach : ∀ other ∈ switches, other.Keeps inv :=
      fun other hother => hkeeps.switches other (mem_of_flags hswitch hflags other hother)
    exact ⟨keeps_foldlM heach hoptions h.options, h.operand, h.belong⟩
  · exact hstored (List.Subset.refl words) hrun
  · split at hrun
    · split at hrun
      · exact hstored (List.subset_cons_self _ _) hrun
      · cases hrun
    · cases hrun
  · simp only [] at hrun
    split at hrun
    · cases hrun
    · exact hstored (List.drop_subset _ _) hrun

/-- The induction is on the fuel; what pends keeps the property all the way. -/
theorem Pends.readWords (h : grammar.Pends inv p words) (hkeeps : grammar.Keeps inv) (fuel : Nat)
    (hrun : grammar.readWords fuel p words = .ok q) : inv q.options := by
  induction fuel generalizing p words with
  | zero =>
      cases hrun
      exact h.options
  | succ fuel ih =>
      rw [readWords_succ] at hrun
      simp only [] at hrun
      split at hrun
      · obtain ⟨⟨taken, rest⟩, htake, heq⟩ := bind_eq_ok_iff.mp hrun
        cases heq
        exact (h.takeOperand htake).1.options
      · obtain ⟨⟨taken, rest⟩, htake, hrun⟩ := bind_eq_ok_iff.mp hrun
        obtain ⟨hpends, hrest⟩ : grammar.Pends inv taken rest ∧ rest ⊆ words := by
          split at htake
          · cases htake
            exact ⟨h, List.Subset.refl _⟩
          · exact h.takeOperand htake
        unfold readOn at hrun
        simp only [] at hrun
        split at hrun
        · exact ih hpends hrun
        · split at hrun
          · cases hrun
            exact hpends.options
          · rename_i word behind hbehind
            have hsubset : word :: behind ⊆ words := hbehind ▸ List.drop_subset _ _
            have hgoesOn (extras : List Text) :
                grammar.Pends inv { taken with extras } behind :=
              ⟨hpends.options, hpends.operand, h.belong.subset (List.cons_subset.mp hsubset).2⟩
            split at hrun
            · rename_i switch name attached hrole
              obtain ⟨⟨set, later⟩, hset, hrun⟩ := bind_eq_ok_iff.mp hrun
              have hswitch :=
                h.belong word (hsubset List.mem_cons_self) switch name attached hrole
              exact ih ((hgoesOn _).takeSwitch hkeeps hswitch hset) hrun
            · exact ih (hgoesOn _) hrun

/-- What all switches and the operand of a grammar keep is true of the options that are read, if it
is true of those without arguments. -/
theorem Keeps.read (h : grammar.Keeps inv) {s t : σ} {arguments : List Text} (hs : inv s)
    (hread : grammar.read s arguments = .ok t) : inv t := by
  obtain ⟨⟨options, extras⟩, hknown, hread⟩ := bind_eq_ok_iff.mp hread
  obtain ⟨words, hwords, hknown⟩ := bind_eq_ok_iff.mp hknown
  obtain ⟨p, hp, hknown⟩ := bind_eq_ok_iff.mp hknown
  have hinv : inv p.options :=
    Pends.readWords ⟨hs, h.operand, belong_of_words hwords⟩ h _ hp
  cases hpending : p.pending with
  | some operand =>
      simp only [hpending] at hknown
      cases hknown
  | none =>
      simp only [hpending] at hknown
      cases hknown
      simp only [] at hread
      split at hread
      · cases hread
        exact hinv
      · cases hread

end Grammar
end LiveFeed.CommandLine
