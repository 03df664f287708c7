/-
Which documents are configurations.  By the rules a document is a mapping with the name of an
authority and a positive lifetime, and, if it has topics, these are null or a mapping that names
nothing but the two topics.  A configuration is loaded from these documents and from one more kind:
whatever else counts as nothing passes for no topics, a false, a zero, an empty text or an empty
list.  All other documents are refused for some problem in the file.
-/
import LiveFeed.Config
import LiveFeed.Outside
import LiveFeed.Proofs.Steps
import Mathlib.Data.List.Basic

namespace LiveFeed

namespace Yaml

deriving instance DecidableEq for Datum
deriving instance DecidableEq for Collection
deriving instance DecidableEq for Document

namespace Datum

/-- Only the same text equals a text as a key. -/
theorem sameKey_str_iff {t : Text} {key : Datum} : sameKey (.str t) key = true ↔ key = .str t := by
  cases key with
  | str _ =>
      rw [sameKey, beq_iff_eq, str.injEq]
      exact eq_comm
  | _ => simp [sameKey, number?]

theorem field?_cons_of_ne {key : Text} {field : Datum × Datum} (h : field.1 ≠ .str key)
    (rest : List (Datum × Datum)) : field? (field :: rest) key = field? rest key := by
  have hother : sameKey (.str key) field.1 = false :=
    Bool.eq_false_iff.mpr fun hsame => h (sameKey_str_iff.mp hsame)
  simp only [field?, List.find?_cons, hother]

theorem field?_cons_self (key : Text) (value : Datum) (rest : List (Datum × Datum)) :
    field? ((.str key, value) :: rest) key = some value := by
  simp only [field?, List.find?_cons, sameKey_str_iff.mpr, Option.map_some]

end Datum
end Yaml

namespace Config

open Yaml (Datum Document)

variable {document : Document} {fields root overrides : List (Datum × Datum)}
  {given : List (Text × Text)} {value : Datum} {name : Text} {config : Config}

/-! The rules -/

/-- A value is a name: a text that is not empty. -/
def Names (value : Datum) (name : Text) : Prop :=
  value = .str name ∧ name.isEmpty = false

/-- Fields that name the two topics and nothing else. -/
def AreOverrides (fields : List (Datum × Datum)) : Prop :=
  ∀ field ∈ fields, (field.1 = .str "requests" ∨ field.1 = .str "events") ∧
    ∃ name, Names field.2 name

/-- The name of a topic is the one given to it, else the one it has otherwise. -/
def Resolves (overrides : List (Datum × Datum)) (key otherwise name : Text) : Prop :=
  match Datum.field? overrides key with
  | some value => value = .str name
  | none => name = otherwise

/-- What may stand under the topics by the rules, and the fields that it gives. -/
inductive Gives (document : Document) : Option Datum → List (Datum × Datum) → Prop where
  | absent : Gives document none []
  | null : Gives document (some .null) []
  | mapping {value : Datum} {fields : List (Datum × Datum)}
      (hfields : document.fields? value = some fields) : Gives document (some value) fields

/-- What passes for no topics, although it is neither null nor a mapping. -/
inductive PassesForNone (document : Document) : Option Datum → List (Datum × Datum) → Prop where
  | blank {value : Datum} (hnull : value ≠ .null) (hfields : document.fields? value = none)
      (hblank : document.isBlank value = true) : PassesForNone document (some value) []

/-- The configuration that fields and overrides of topics describe. -/
structure Settles (root overrides : List (Datum × Datum)) (config : Config) : Prop where
  authority : ∃ value, Datum.field? root "authority" = some value ∧ Names value config.authority
  lifetime : Datum.field? root "lifetime_ms" = some (.int config.lifetime)
  positive : 0 < config.lifetime
  named : AreOverrides overrides
  requests : Resolves overrides "requests" "oracle-requests" config.requestsTopic
  events : Resolves overrides "events" "oracle-events" config.eventsTopic

/-- A document is a mapping that describes a configuration, for one reading of what stands under the
topics. -/
def Describes (Reading : Option Datum → List (Datum × Datum) → Prop) (document : Document)
    (config : Config) : Prop :=
  ∃ root overrides, document.fields? document.root = some root ∧
    Reading (Datum.field? root "topics") overrides ∧ Settles root overrides config

/-! The checks, one by one -/

theorem require_eq_ok_iff {key : String} :
    require fields key = .ok value ↔ Datum.field? fields key = some value := by
  rw [require]
  cases Datum.field? fields key <;> simp

theorem nonEmpty_eq_ok_iff {problem : Problem} :
    nonEmpty problem value = .ok name ↔ Names value name := by
  cases value with
  | str text =>
      cases hempty : text.isEmpty
      · simp only [nonEmpty, hempty, Bool.false_eq_true, ↓reduceIte, Except.ok.injEq, Names,
          Datum.str.injEq]
        exact ⟨fun h => ⟨h, h ▸ hempty⟩, And.left⟩
      · simp only [nonEmpty, hempty, ↓reduceIte, reduceCtorEq, Names, Datum.str.injEq, false_iff]
        rintro ⟨rfl, hfilled⟩
        rw [hempty] at hfilled
        cases hfilled
  | _ => simp [nonEmpty, Names]

theorem positive_eq_ok_iff {n : Int} : positive value = .ok n ↔ value = .int n ∧ 0 < n := by
  cases value with
  | int m =>
      by_cases hpositive : 0 < m
      · simp only [positive, hpositive, ↓reduceIte, Except.ok.injEq, Datum.int.injEq]
        exact ⟨fun h => ⟨h, h ▸ hpositive⟩, And.left⟩
      · simp only [positive, hpositive, ↓reduceIte, reduceCtorEq, Datum.int.injEq, false_iff]
        rintro ⟨rfl, h⟩
        exact hpositive h
  | _ => simp [positive]

/-- A mapping that counts as nothing has no fields. -/
theorem fields_eq_nil_of_isBlank (h : document.isBlank value = true)
    (hfields : document.fields? value = some fields) : fields = [] := by
  unfold Document.fields? at hfields
  split at hfields
  · split at hfields
    · rename_i r found hcollection
      cases hfields
      rw [Document.isBlank, hcollection] at h
      exact List.isEmpty_iff.mp h
    · cases hfields
  · cases hfields

/-- Fields are those of a mapping, or none stand for what counts as nothing. -/
theorem fieldsOr_eq_ok_iff {problem : Problem} :
    fieldsOr problem document value = .ok fields ↔
      document.fields? value = some fields ∨
        document.fields? value = none ∧ document.isBlank value = true ∧ fields = [] := by
  rw [fieldsOr]
  cases hblank : document.isBlank value with
  | false => cases document.fields? value <;> simp
  | true =>
      cases hfields : document.fields? value with
      | none => simp [eq_comm]
      | some found => simp [fields_eq_nil_of_isBlank hblank hfields]

/-- Under the topics stands what the rules allow, or what passes for none. -/
theorem fieldsOr_topics_iff {problem : Problem} {value : Option Datum} :
    fieldsOr problem document (value.getD .null) = .ok overrides ↔
      Gives document value overrides ∨ PassesForNone document value overrides := by
  rw [fieldsOr_eq_ok_iff]
  constructor
  · rintro (hfields | ⟨hfields, hblank, rfl⟩)
    · cases value with
      | none => cases hfields
      | some value => exact .inl (.mapping hfields)
    · cases value with
      | none => exact .inl .absent
      | some value =>
          by_cases hnull : value = .null
          · rw [hnull]
            exact .inl .null
          · exact .inr (.blank hnull hfields hblank)
  · rintro ((_ | _ | hfields) | ⟨-, hfields, hblank⟩)
    · exact .inr ⟨rfl, rfl, rfl⟩
    · exact .inr ⟨rfl, rfl, rfl⟩
    · exact .inl hfields
    · exact .inr ⟨hfields, hblank, rfl⟩

/-! The topics -/

theorem isTopic_iff {key : Datum} :
    isTopic key = true ↔ key = .str "requests" ∨ key = .str "events" := by
  simp only [isTopic, defaultTopics, List.any_cons, List.any_nil, Bool.or_false, Bool.or_eq_true,
    Datum.sameKey_str_iff]

theorem checkNames_eq_ok_iff :
    checkNames fields = .ok () ↔ ∀ field ∈ fields, isTopic field.1 = true := by
  have hempty : ((fields.map (·.1)).filter fun key => !(isTopic key)).isEmpty = true ↔
      ∀ field ∈ fields, isTopic field.1 = true := by
    simp [List.filter_eq_nil_iff]
  rw [← hempty, checkNames]
  split
  · exact iff_of_true rfl ‹_›
  · refine iff_of_false ?_ ‹_›
    split <;> nofun

/-- Where there are no keys but texts, names are read if and only if all values are names. -/
theorem topicNames_eq_ok_iff (h : ∀ field ∈ fields, ∃ key, field.1 = .str key) :
    (∃ given, topicNames fields = .ok given) ↔
      ∀ field ∈ fields, ∃ name, Names field.2 name := by
  induction fields with
  | nil => simp [topicNames]
  | cons field rest ih =>
      obtain ⟨⟨key, hkey⟩, hrest⟩ := List.forall_mem_cons.mp h
      obtain ⟨_, value⟩ := field
      cases hkey
      rw [List.forall_mem_cons, ← ih hrest, topicNames]
      simp only [bind_eq_ok_iff, nonEmpty_eq_ok_iff]
      constructor
      · rintro ⟨_, name, hname, more, hmore, -⟩
        exact ⟨⟨name, hname⟩, more, hmore⟩
      · rintro ⟨⟨name, hname⟩, more, hmore⟩
        exact ⟨_, name, hname, more, hmore, rfl⟩

theorem areOverrides_iff :
    AreOverrides fields ↔ checkNames fields = .ok () ∧ ∃ given, topicNames fields = .ok given := by
  rw [checkNames_eq_ok_iff]
  have hsplit : AreOverrides fields ↔ (∀ field ∈ fields, isTopic field.1 = true) ∧
      ∀ field ∈ fields, ∃ name, Names field.2 name := by
    simp only [AreOverrides, isTopic_iff]
    exact forall₂_and
  rw [hsplit]
  refine and_congr_right fun htopics => (topicNames_eq_ok_iff fun field hfield => ?_).symm
  rcases isTopic_iff.mp (htopics field hfield) with hkey | hkey
  · exact ⟨_, hkey⟩
  · exact ⟨_, hkey⟩

/-- Names are read under the keys under which they stand. -/
theorem field?_of_topicNames (h : topicNames fields = .ok given) (key : Text) :
    Datum.field? fields key = (given.find? (·.1 = key)).map (.str ·.2) := by
  fun_induction topicNames fields generalizing given with
  | case1 =>
      cases h
      rfl
  | case2 found value rest ih =>
      obtain ⟨name, hname, h⟩ := bind_eq_ok_iff.mp h
      obtain ⟨more, hmore, h⟩ := bind_eq_ok_iff.mp h
      cases h
      obtain ⟨rfl, -⟩ := nonEmpty_eq_ok_iff.mp hname
      by_cases hkey : found = key
      · rw [hkey, Datum.field?_cons_self, List.find?_cons_of_pos (by simp)]
        rfl
      · rw [Datum.field?_cons_of_ne (by simpa using hkey),
          List.find?_cons_of_neg (by simpa using hkey)]
        exact ih hmore
  | case3 field rest hfield ih =>
      rw [Datum.field?_cons_of_ne (fun hkey => hfield key field.2 (Prod.ext hkey rfl))]
      exact ih h

theorem resolves_iff (h : topicNames fields = .ok given) (key otherwise : Text)
    (hdefault : defaultTopics.find? (·.1 = key) = some (key, otherwise)) :
    Resolves fields key otherwise name ↔ name = topic given key := by
  rw [Resolves, field?_of_topicNames h, topic, List.find?_append, hdefault]
  cases given.find? (·.1 = key) <;> simp [eq_comm]

/-! The whole document -/

/-- A document is accepted if it describes a configuration, also where something else passes for no
topics. -/
theorem ofDocument_eq_ok_iff :
    ofDocument document = .ok config ↔
      Describes (Gives document) document config ∨
        Describes (PassesForNone document) document config := by
  have hboth : Describes (Gives document) document config ∨
      Describes (PassesForNone document) document config ↔
      ∃ root overrides, document.fields? document.root = some root ∧
        fieldsOr .badTopics document ((Datum.field? root "topics").getD .null) = .ok overrides ∧
        Settles root overrides config := by
    simp only [Describes, fieldsOr_topics_iff, ← exists_or, or_and_right, and_or_left]
  rw [hboth]
  constructor
  · intro h
    obtain ⟨root, hroot, h⟩ := bind_eq_ok_iff.mp h
    obtain ⟨value, hauthority, h⟩ := bind_eq_ok_iff.mp h
    obtain ⟨length, hlifetime, h⟩ := bind_eq_ok_iff.mp h
    obtain ⟨authority, hname, h⟩ := bind_eq_ok_iff.mp h
    obtain ⟨lifetime, hpositive, h⟩ := bind_eq_ok_iff.mp h
    obtain ⟨overrides, htopics, h⟩ := bind_eq_ok_iff.mp h
    obtain ⟨_, hnames, h⟩ := bind_eq_ok_iff.mp h
    obtain ⟨given, hgiven, h⟩ := bind_eq_ok_iff.mp h
    cases h
    have hfields : document.fields? document.root = some root := by
      rcases fieldsOr_eq_ok_iff.mp hroot with hfields | ⟨-, -, rfl⟩
      · exact hfields
      · cases hauthority
    obtain ⟨rfl, hlt⟩ := positive_eq_ok_iff.mp hpositive
    exact ⟨root, overrides, hfields, htopics, ⟨value, require_eq_ok_iff.mp hauthority,
      nonEmpty_eq_ok_iff.mp hname⟩, require_eq_ok_iff.mp hlifetime, hlt,
      areOverrides_iff.mpr ⟨hnames, given, hgiven⟩, (resolves_iff hgiven _ _ (by decide)).mpr rfl,
      (resolves_iff hgiven _ _ (by decide)).mpr rfl⟩
  · rintro ⟨root, overrides, hfields, htopics, hsettles⟩
    obtain ⟨value, hauthority, hname⟩ := hsettles.authority
    obtain ⟨hnames, given, hgiven⟩ := areOverrides_iff.mp hsettles.named
    simp only [ofDocument, bind_eq_ok_iff]
    refine ⟨root, fieldsOr_eq_ok_iff.mpr (.inl hfields), value, require_eq_ok_iff.mpr hauthority,
      _, require_eq_ok_iff.mpr hsettles.lifetime, config.authority, nonEmpty_eq_ok_iff.mpr hname,
      config.lifetime, positive_eq_ok_iff.mpr ⟨rfl, hsettles.positive⟩, overrides, htopics, (),
      hnames, given, hgiven, ?_⟩
    rw [← (resolves_iff hgiven _ _ (by decide)).mp hsettles.requests,
      ← (resolves_iff hgiven _ _ (by decide)).mp hsettles.events]
    rfl

/-- A file with a document is loaded if and only if the document describes a configuration, also
where something passes for no topics that is neither null nor a mapping; else there is a problem in
that file.  What is neither null nor a mapping is refused under the topics unless it counts as
nothing. -/
theorem load_accepts_described {tree : FileTree} {path : Text} {content : Bytes}
    (hfile : tree.node? (Path.ofText path) = .ok (some (.file content)))
    (hread : Yaml.read content = .ok document) :
    (∀ config, load tree (some path) = .ok config ↔
      Describes (Gives document) document config ∨
        Describes (PassesForNone document) document config) ∧
    (∀ fault, load tree (some path) = .error fault →
      ∃ what, fault = .problem (Path.ofText path).name what) ∧
    ∀ root value, document.fields? document.root = some root →
      Datum.field? root "topics" = some value → value ≠ .null → document.fields? value = none →
      (document.isBlank value = false →
        ∃ what, load tree (some path) = .error (.problem (Path.ofText path).name what)) ∧
      (document.isBlank value = true → ∀ config, load tree (some path) = .ok config →
        config.requestsTopic = "oracle-requests" ∧ config.eventsTopic = "oracle-events") := by
  have hload : load tree (some path) =
      (ofDocument document).mapError (.problem (Path.ofText path).name) := by
    simp only [load, hfile, mapError_ok, bind, Except.bind, hread]
  have hproblem (fault : Fault) (h : load tree (some path) = .error fault) :
      ∃ what, fault = .problem (Path.ofText path).name what := by
    rw [hload] at h
    obtain ⟨what, -, rfl⟩ := mapError_eq_error_iff.mp h
    exact ⟨what, rfl⟩
  have hiff (config : Config) : load tree (some path) = .ok config ↔
      Describes (Gives document) document config ∨
        Describes (PassesForNone document) document config := by
    rw [hload, mapError_eq_ok_iff, ofDocument_eq_ok_iff]
  refine ⟨hiff, hproblem, ?_⟩
  intro root value hroot htopics hnull hfields
  -- whatever is loaded has been read without overrides, from something that counts as nothing
  have hpasses (config : Config) (h : load tree (some path) = .ok config) :
      document.isBlank value = true ∧ Settles root [] config := by
    rcases (hiff config).mp h with ⟨_, overrides, hroot', hreading, hsettles⟩ |
      ⟨_, overrides, hroot', hreading, hsettles⟩
    all_goals
      rw [hroot] at hroot'
      cases hroot'
      rw [htopics] at hreading
    · cases hreading with
      | null => exact absurd rfl hnull
      | mapping hmapping =>
          rw [hfields] at hmapping
          cases hmapping
    · cases hreading with
      | blank _ _ hblank => exact ⟨hblank, hsettles⟩
  constructor
  · intro hblank
    cases hresult : load tree (some path) with
    | ok config =>
        rw [(hpasses config hresult).1] at hblank
        cases hblank
    | error fault =>
        obtain ⟨what, rfl⟩ := hproblem fault hresult
        exact ⟨what, rfl⟩
  · intro _ config h
    obtain ⟨-, hsettles⟩ := hpasses config h
    exact ⟨hsettles.requests, hsettles.events⟩

/-- An empty list under the topics is against the rules and passes for no topics. -/
theorem load_accepts_described_empty_list :
    let content := Utf8.encode "authority: ann\nlifetime_ms: 10\ntopics: []\n"
    let document : Document := ⟨.collection 0, [(6, .list []), (0, .mapping
      [(.str "authority", .str "ann"), (.str "lifetime_ms", .int 10),
        (.str "topics", .collection 6)])]⟩
    let tree := FileTree.empty.build (Path.ofText "feed.yml") (.file content)
    tree.node? (Path.ofText "feed.yml") = .ok (some (.file content)) ∧
      Yaml.read content = .ok document ∧
      (∀ config, ¬ Describes (Gives document) document config) ∧
      load tree (some "feed.yml") = .ok ⟨"ann", 10, "oracle-requests", "oracle-events"⟩ := by
  intro content document tree
  have hfile : tree.node? (Path.ofText "feed.yml") = .ok (some (.file content)) := by
    decide +kernel
  have hread : Yaml.read content = .ok document := by decide +kernel
  refine ⟨hfile, hread, ?_, ?_⟩
  · rintro config ⟨root, overrides, hroot, hreading, -⟩
    cases hroot
    cases hreading with
    | mapping hfields => cases hfields
  · refine ((load_accepts_described hfile hread).1 _).mpr (.inr ⟨_, [], rfl, ?_, ?_⟩)
    · exact .blank (by decide) rfl rfl
    · exact ⟨⟨_, rfl, rfl, rfl⟩, rfl, by decide, nofun, rfl, rfl⟩

/-- Two lines in a file are configuration enough. -/
theorem load_two_lines :
    load (FileTree.empty.build (Path.ofText defaultConfigFile)
        (.file (Utf8.encode "authority: ann\nlifetime_ms: 10\n"))) (some defaultConfigFile) =
      .ok ⟨"ann", 10, "oracle-requests", "oracle-events"⟩ := by
  decide +kernel

end Config
end LiveFeed
