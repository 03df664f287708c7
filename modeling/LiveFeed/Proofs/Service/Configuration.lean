/-
What a service can be configured to be.  Whatever the file and the arguments say, a service that
gets past them has an authority with a name and a positive lifetime.
-/
import LiveFeed.Proofs.CommandLine
import LiveFeed.Proofs.Config
import LiveFeed.Proofs.Service.Run

namespace LiveFeed

namespace Config

/-- A configuration that a feed can be opened with. -/
structure IsUsable (config : Config) : Prop where
  named : config.authority.isEmpty = false
  positive : 0 < config.lifetime

theorem Settles.isUsable {root overrides : List (Yaml.Datum × Yaml.Datum)} {config : Config}
    (h : Settles root overrides config) : config.IsUsable := by
  obtain ⟨_, -, -, hnamed⟩ := h.authority
  exact ⟨hnamed, h.positive⟩

theorem isUsable_of_document {document : Yaml.Document} {config : Config}
    (h : ofDocument document = .ok config) : config.IsUsable := by
  rcases ofDocument_eq_ok_iff.mp h with ⟨_, _, -, -, hsettles⟩ | ⟨_, _, -, -, hsettles⟩
  · exact hsettles.isUsable
  · exact hsettles.isUsable

theorem isUsable_of_load {tree : FileTree} {path : Option Text} {config : Config}
    (h : load tree path = .ok config) : config.IsUsable := by
  unfold load at h
  split at h
  · cases h
  · obtain ⟨node, -, h⟩ := bind_eq_ok_iff.mp h
    split at h
    · obtain ⟨document, -, h⟩ := bind_eq_ok_iff.mp h
      exact isUsable_of_document (mapError_eq_ok_iff.mp h)
    · cases h

end Config

namespace Service

namespace Options

/-- An authority that is given in place of the configured one has a name. -/
def IsNamed (options : Options) : Prop :=
  ∀ authority, options.authority = some authority → authority.isEmpty = false

theorem isEmpty_of_nonEmpty? {text : Option Text} {name : Text}
    (h : text.bind nonEmpty? = some name) : name.isEmpty = false := by
  obtain ⟨given, -, h⟩ := Option.bind_eq_some_iff.mp h
  unfold nonEmpty? at h
  split at h
  · cases h
  · rename_i hfilled
    cases h
    exact Bool.eq_false_iff.mpr hfilled

/-- Of all switches only one sets the authority, and never to an empty one. -/
theorem grammar_keeps : grammar.Keeps IsNamed where
  switches := by
    intro switch hswitch
    simp only [grammar, List.mem_cons, List.not_mem_nil, or_false] at hswitch
    rcases hswitch with rfl | rfl | rfl | rfl | rfl | rfl | rfl | rfl
    · exact CommandLine.Switch.keeps_help
    · exact CommandLine.Switch.keeps_text _ fun _ _ h => h
    · exact CommandLine.Switch.keeps_text _ fun _ _ h => h
    · exact CommandLine.Switch.keeps_text _ fun _ _ h => h
    · exact CommandLine.Switch.keeps_text _ fun _ _ _ _ => isEmpty_of_nonEmpty?
    · exact CommandLine.Switch.keeps_whole _ fun _ _ h => h
    · exact CommandLine.Switch.keeps_text _ fun _ _ h => h
    · exact CommandLine.Switch.keeps_whole _ fun _ _ h => h
  operand := nofun

theorem isUsable_of_override {options : Options} (hnamed : options.IsNamed)
    {loaded config : Config} (hloaded : loaded.IsUsable)
    (h : options.override loaded = .ok config) : config.IsUsable := by
  have hauthority : (options.authority.getD loaded.authority).isEmpty = false := by
    cases hgiven : options.authority with
    | none => exact hloaded.named
    | some authority => exact hnamed authority hgiven
  unfold override at h
  simp only [] at h
  split at h
  · cases h
    exact ⟨hauthority, hloaded.positive⟩
  · cases h
  · split at h
    · cases h
    · cases h
      exact ⟨hauthority, Int.not_le.mp ‹¬ _›⟩

end Options

/-- A service gets past its configuration with just what its arguments and files give, and has done
nothing so far. -/
theorem configure_eq_ok_iff {arguments : List Text} {options : Options} {config : Config}
    {s t : State} :
    configure arguments s = .ok (options, config) t ↔
      Configures arguments s.tree options config ∧ t = s := by
  constructor
  · intro h
    unfold configure at h
    cases hoptions : Options.grammar.read Options.default arguments with
    | error fault => simp only [hoptions] at h; cases h
    | ok given =>
        simp only [hoptions] at h
        rw [bind_get] at h
        cases hload : Config.load s.tree given.configFile with
        | error fault => simp only [hload] at h; cases h
        | ok loaded =>
            simp only [hload] at h
            cases hoverride : given.override loaded with
            | error misfit => cases misfit <;> simp only [hoverride] at h <;> cases h
            | ok overridden =>
                simp only [hoverride] at h
                cases h
                exact ⟨⟨hoptions, loaded, hload, hoverride⟩, rfl⟩
  · rintro ⟨h, rfl⟩
    exact configure_eq h

theorem Configures.isUsable {arguments : List Text} {tree : FileTree} {options : Options}
    {config : Config} (h : Configures arguments tree options config) : config.IsUsable := by
  obtain ⟨loaded, hload, hoverride⟩ := h.config_eq
  have hnamed : options.IsNamed := Options.grammar_keeps.read (nofun : Options.default.IsNamed)
    h.options_eq
  exact Options.isUsable_of_override hnamed (Config.isUsable_of_load hload) hoverride

/-- The feed that a service opens has an authority with a name, a positive lifetime and no log. -/
theorem feed_of_configure {arguments : List Text} {s t : State}
    (h : (configure arguments >>= fun configured => openFeed configured.2) s = .ok () t) :
    ∃ (authority : Text) (lifetime : Int), authority.isEmpty = false ∧ 0 < lifetime ∧
      t.desk.session.feed = Feed.new authority (.int lifetime) := by
  cases hconfigure : configure arguments s with
  | error fault e =>
      rw [bind_of_error hconfigure] at h
      cases h
  | ok configured e =>
      rw [bind_of_ok hconfigure] at h
      cases h
      obtain ⟨hconfigures, rfl⟩ := configure_eq_ok_iff.mp hconfigure
      obtain ⟨hnamed, hpositive⟩ := hconfigures.isUsable
      exact ⟨_, _, hnamed, hpositive, rfl⟩

end Service
end LiveFeed
