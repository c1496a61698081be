import Mathlib.Tactic.SplitIfs
import ApiBook.Text.Basic

/-! # Bytes of texts

Texts are in the same order as their bytes in UTF-8.
-/

namespace ApiBook.Text

def bytes (s : Text) : ByteArray := (String.ofList s).toUTF8

def byteList (s : Text) : List UInt8 := s.bytes.data.toList

variable {c d : Char} {s t : Text} {l m : List UInt8}

theorem byteList_eq (s : Text) : byteList s = s.flatMap String.utf8EncodeChar := by
  rw [byteList, bytes, String.toUTF8_eq_toByteArray, String.toByteArray_ofList, List.utf8Encode]
  simp

@[simp] theorem byteList_cons : byteList (c :: s) = String.utf8EncodeChar c ++ byteList s := by
  rw [byteList_eq, byteList_eq, List.flatMap_cons]

theorem ofNat_lt_ofNat_iff {a b : Nat} (ha : a < 256) (hb : b < 256) :
    UInt8.ofNat a < UInt8.ofNat b ↔ a < b := by
  rw [UInt8.lt_iff_toNat_lt, UInt8.toNat_ofNat_of_lt' ha, UInt8.toNat_ofNat_of_lt' hb]

theorem ofNat_eq_ofNat_iff {a b : Nat} (ha : a < 256) (hb : b < 256) :
    UInt8.ofNat a = UInt8.ofNat b ↔ a = b := by
  rw [← UInt8.toNat_inj, UInt8.toNat_ofNat_of_lt' ha, UInt8.toNat_ofNat_of_lt' hb]

theorem utf8EncodeChar_append_lt (h : c < d) :
    String.utf8EncodeChar c ++ l < String.utf8EncodeChar d ++ m := by
  have hlt : c.val.toNat < d.val.toNat := h
  have hd : d.val.toNat < 0x110000 := by
    have hv := d.valid
    simp only [UInt32.isValidChar, Nat.isValidChar] at hv
    omega
  unfold String.utf8EncodeChar
  simp only
  generalize c.val.toNat = v at *
  generalize d.val.toNat = w at *
  have hv : v / 262144 % 8 = v / 262144 := Nat.mod_eq_of_lt (by omega)
  have hw : w / 262144 % 8 = w / 262144 := Nat.mod_eq_of_lt (by omega)
  split_ifs
  all_goals
    simp (disch := omega) only [List.cons_append, List.cons_lt_cons_iff, ofNat_lt_ofNat_iff,
      ofNat_eq_ofNat_iff]
    omega

theorem append_lt_append_iff {α : Type} [LT α] [Std.Irrefl (α := α) (· < ·)] (p : List α)
    {a b : List α} : p ++ a < p ++ b ↔ a < b := by
  induction p with
  | nil => rfl
  | cons x p ih => simpa using ih

theorem exists_utf8EncodeChar (c : Char) : ∃ b l, String.utf8EncodeChar c = b :: l := by
  unfold String.utf8EncodeChar
  simp only
  split_ifs <;> exact ⟨_, _, rfl⟩

theorem byteList_lt (h : s < t) : byteList s < byteList t := by
  induction s generalizing t with
  | nil =>
    cases t with
    | nil => exact absurd h (List.lt_irrefl _)
    | cons d t =>
      obtain ⟨b, l, hd⟩ := exists_utf8EncodeChar d
      rw [byteList_cons, hd, byteList_eq]
      exact List.nil_lt_cons b _
  | cons c s ih =>
    cases t with
    | nil => exact absurd h (List.not_lt_nil _)
    | cons d t =>
      rw [byteList_cons, byteList_cons]
      rcases List.cons_lt_cons_iff.1 h with hlt | ⟨rfl, hlt⟩
      · exact utf8EncodeChar_append_lt hlt
      · exact (append_lt_append_iff _).2 (ih hlt)

@[simp] theorem byteList_lt_iff : byteList s < byteList t ↔ s < t := by
  refine ⟨fun h => Classical.not_not.1 fun hn => ?_, byteList_lt⟩
  rcases List.le_iff_lt_or_eq.1 (List.not_lt.1 hn) with hlt | rfl
  · exact List.lt_asymm h (byteList_lt hlt)
  · exact List.lt_irrefl _ h

end ApiBook.Text
