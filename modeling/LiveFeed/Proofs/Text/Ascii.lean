/-
Text in printable ASCII is read back from its octets as it was written: every character has one
octet, and none of them ends a line.
-/
import LiveFeed.FileTree

namespace LiveFeed

/-- Whether a character is one of printable ASCII. -/
def IsPrintableAscii (c : Char) : Prop := 32 ≤ c.toNat ∧ c.toNat < 127

/-- Whether a character is printable ASCII can be decided. -/
instance (c : Char) : Decidable (IsPrintableAscii c) :=
  inferInstanceAs (Decidable (32 ≤ c.toNat ∧ c.toNat < 127))

namespace IsPrintableAscii

variable {c : Char} {cs : List Char}

theorem utf8EncodeChar_eq (h : IsPrintableAscii c) :
    String.utf8EncodeChar c = [UInt8.ofNat c.toNat] := by
  have hle : c.val.toNat ≤ 0x7F := Nat.le_of_lt_succ (Nat.lt_succ_of_lt h.2)
  simp only [String.utf8EncodeChar, hle, ↓reduceIte]
  rfl

theorem toNat_ofNat (h : IsPrintableAscii c) : (UInt8.ofNat c.toNat).toNat = c.toNat := by
  have hlt := h.2
  exact Nat.mod_eq_of_lt (by omega)

theorem of_all (h : cs.all (fun c => decide (IsPrintableAscii c)) = true) :
    ∀ c ∈ cs, IsPrintableAscii c := by
  simpa using h

theorem read_eq (h : ∀ c ∈ cs, IsPrintableAscii c) (position : Nat) :
    Utf8.read position none (cs.flatMap String.utf8EncodeChar) = .ok (cs, none) := by
  induction cs generalizing position with
  | nil => rfl
  | cons c rest ih =>
      have hc := h c List.mem_cons_self
      have hrest := ih (fun c hc => h c (List.mem_cons_of_mem _ hc)) (position + 1)
      have hlt : c.toNat < 0x80 := Nat.lt_succ_of_lt hc.2
      rw [List.flatMap_cons, hc.utf8EncodeChar_eq, List.singleton_append, Utf8.read.eq_2]
      simp only [hc.toNat_ofNat, hlt, ↓reduceIte, hrest, Char.ofNat_toNat]
      rfl

theorem unify_eq (h : ∀ c ∈ cs, IsPrintableAscii c) : LineEnds.unify cs = cs := by
  induction cs with
  | nil => rfl
  | cons c rest ih =>
      have hreturn : c ≠ '\r' := by
        rintro rfl
        exact absurd (h '\r' List.mem_cons_self).1 (by decide)
      rw [LineEnds.unify.eq_3 c rest (fun _ hc => absurd hc hreturn) (absurd · hreturn),
        ih fun c hc => h c (List.mem_cons_of_mem _ hc)]

end IsPrintableAscii

theorem Utf8.decode_encode_of_ascii {text : String} (h : ∀ c ∈ text.toList, IsPrintableAscii c) :
    Utf8.decode (Utf8.encode text) = .ok text := by
  rw [Utf8.decode, Utf8.encode, IsPrintableAscii.read_eq h]
  exact congrArg Except.ok (String.ofList_toList)

/-- Printable ASCII is read back from a file as it was written. -/
theorem FileTree.textOf_encode {text : String} (h : ∀ c ∈ text.toList, IsPrintableAscii c) :
    FileTree.textOf (Utf8.encode text) = .ok text := by
  rw [FileTree.textOf, Utf8.decode_encode_of_ascii h]
  refine congrArg Except.ok ?_
  rw [IsPrintableAscii.unify_eq h, String.ofList_toList]

end LiveFeed
