/-
Paths and their texts.  The text of a path has nothing but what is in the text it was made of, and
slashes and dots; so whether a path can be given to the file system shows in that text.
-/
import LiveFeed.FileTree
import Mathlib.Data.List.Basic
import Mathlib.Data.List.TakeWhile

namespace LiveFeed

theorem Utf8.unpaired?_eq_none_iff {isRefused : CodePoint → Bool} {text : Text} :
    Utf8.unpaired? isRefused text = none ↔ ∀ p ∈ text.points, isRefused p = false := by
  have hdrop : text.points.dropWhile (!isRefused ·) = [] ↔
      ∀ p ∈ text.points, isRefused p = false := by
    rw [List.dropWhile_eq_nil_iff]
    simp only [Bool.not_eq_true']
  rw [← hdrop, unpaired?]
  split <;> simp [*]

theorem Text.points_append (a b : Text) : (a ++ b).points = a.points ++ b.points := rfl

theorem Text.hasHalf_append (a b : Text) : (a ++ b).hasHalf = (a.hasHalf || b.hasHalf) := by
  rw [hasHalf, hasHalf, hasHalf, points_append, List.any_append]

theorem Text.join_append_last (between : Text) (front : List Text) (a b : Text) :
    Text.join between (front ++ [a ++ b]) = Text.join between (front ++ [a]) ++ b := by
  have hassoc (x y z : Text) : x ++ y ++ z = x ++ (y ++ z) :=
    congrArg Text.mk (List.append_assoc x.points y.points z.points)
  induction front with
  | nil => rfl
  | cons t rest ih =>
      have hjoin (last : Text) : Text.join between (t :: rest ++ [last]) =
          t ++ between ++ Text.join between (rest ++ [last]) :=
        Text.join.eq_3 between t (rest ++ [last]) (by simp)
      rw [hjoin, hjoin, ih, hassoc (t ++ between)]

theorem Text.mem_splitPoints {mark : Char} {p : CodePoint} {points part : List CodePoint}
    (hpart : part ∈ Text.splitPoints mark points) (hp : p ∈ part) : p ∈ points := by
  induction points generalizing part with
  | nil =>
      rw [splitPoints, List.mem_singleton] at hpart
      rwa [hpart] at hp
  | cons first rest ih =>
      rw [splitPoints] at hpart
      split at hpart
      · rcases List.mem_cons.mp hpart with rfl | hpart
        · cases hp
        · exact List.mem_cons_of_mem first (ih hpart hp)
      · split at hpart
        · rename_i head tail hparts
          rcases List.mem_cons.mp hpart with rfl | htail
          · rcases List.mem_cons.mp hp with rfl | hp
            · exact List.mem_cons_self
            · exact List.mem_cons_of_mem first (ih (hparts ▸ List.mem_cons_self) hp)
          · exact List.mem_cons_of_mem first (ih (hparts ▸ List.mem_cons_of_mem head htail) hp)
        · rw [List.mem_singleton] at hpart
          rw [hpart, List.mem_singleton] at hp
          rw [hp]
          exact List.mem_cons_self

theorem Text.mem_join {between : Text} {ts : List Text} {p : CodePoint}
    (hp : p ∈ (Text.join between ts).points) :
    p ∈ between.points ∨ ∃ t ∈ ts, p ∈ t.points := by
  induction ts with
  | nil => cases hp
  | cons t rest ih =>
      cases rest with
      | nil => exact .inr ⟨t, List.mem_cons_self, hp⟩
      | cons u rest =>
          rw [Text.join, Text.points_append, Text.points_append, List.mem_append,
            List.mem_append] at hp
          · rcases hp with (hfirst | hbetween) | hrest
            · exact .inr ⟨t, List.mem_cons_self, hfirst⟩
            · exact .inl hbetween
            · rcases ih hrest with hbetween | ⟨v, hv, hmem⟩
              · exact .inl hbetween
              · exact .inr ⟨v, List.mem_cons_of_mem t hv, hmem⟩
          · nofun

namespace Path

theorem fault?_eq_none_iff {path : Path} :
    path.fault? = none ↔
      ∀ p ∈ path.text.points, (p.isHalf && !isOctet p) = false ∧ p ≠ .char '\x00' := by
  rw [fault?]
  cases hhalves : Utf8.unpaired? (fun p => p.isHalf && !isOctet p) path.text with
  | some halves =>
      constructor
      · nofun
      · intro h
        rw [Utf8.unpaired?_eq_none_iff.mpr fun p hp => (h p hp).1] at hhalves
        cases hhalves
  | none =>
      rw [Utf8.unpaired?_eq_none_iff] at hhalves
      by_cases hnull : CodePoint.char '\x00' ∈ path.text.points
      · simp only [List.contains_iff_mem.mpr hnull, ↓reduceIte]
        constructor
        · nofun
        · intro h
          exact absurd rfl (h _ hnull).2
      · simp only [List.contains_iff_mem, hnull, ↓reduceIte, true_iff]
        intro p hp
        exact ⟨hhalves p hp, fun heq => hnull (heq ▸ hp)⟩

theorem exists_names_eq {path : Path} (hname : path.name.isEmpty = false) :
    path.names = path.names.dropLast ++ [path.name] := by
  cases hlast : path.names.getLast? with
  | none => simp [name, hlast, Text.isEmpty, Text.ofString] at hname
  | some last =>
      have happend := List.dropLast_append_getLast? last hlast
      rw [name, hlast, Option.getD_some, happend]

theorem names_eq_nil_of_name {text : Text} (hname : (ofText text).name.isEmpty = true) :
    (ofText text).names = [] := by
  cases hlast : (ofText text).names.getLast? with
  | none => exact List.getLast?_eq_none_iff.mp hlast
  | some last =>
      have hfull := (List.mem_filter.mp (List.mem_of_getLast? hlast)).2
      rw [name, hlast, Option.getD_some] at hname
      simp [hname] at hfull

theorem mem_root_ofText {t : Text} {p : CodePoint} (hp : p ∈ (ofText t).root.points) :
    p = .char '/' := by
  unfold ofText at hp
  dsimp only at hp
  split at hp <;> simp_all [Text.ofString]

/-- The text of a path has nothing that is not in the text it was made of, but slashes and dots. -/
theorem mem_text_ofText {t : Text} {p : CodePoint} (hp : p ∈ (ofText t).text.points) :
    p ∈ t.points ∨ p = .char '/' ∨ p = .char '.' := by
  rw [text] at hp
  split at hp
  · exact .inr (.inr (by simpa [Text.ofString] using hp))
  · rw [Text.points_append, List.mem_append] at hp
    rcases hp with hroot | hnames
    · exact .inr (.inl (mem_root_ofText hroot))
    · rcases Text.mem_join hnames with hslash | ⟨name, hname, hmem⟩
      · exact .inr (.inl (by simpa [Text.ofString] using hslash))
      · obtain ⟨part, hpart, rfl⟩ := List.mem_map.mp (List.mem_filter.mp hname).1
        exact .inl (Text.mem_splitPoints hpart hmem)

/-- A text can be given to the file system if it holds no halves but those that stand for octets,
and not the character that ends names. -/
theorem fault?_ofText {path : Text}
    (hhalves : ∀ p ∈ path.points, p.isHalf = true → isOctet p = true)
    (hnull : .char '\x00' ∉ path.points) : (ofText path).fault? = none := by
  rw [fault?_eq_none_iff]
  intro p hp
  rcases mem_text_ofText hp with hpath | rfl | rfl
  · refine ⟨?_, fun heq => hnull (heq ▸ hpath)⟩
    cases hhalf : p.isHalf with
    | false => rfl
    | true => rw [hhalves p hpath hhalf]; rfl
  · decide
  · decide

theorem size_append (a b : Text) : size (a ++ b) = size a + size b := by
  simp [size, Text.points_append]

end Path
end LiveFeed
