import Mathlib.Data.List.Basic

/-!
# Text as bytes

A body is a list of bytes, and text is written into it as UTF-8.  Beside the round
trip of text through its bytes, this file has the two facts that reading a delimited
body rests on: an ASCII byte stands in the bytes of a text only where its character
stands in the text, and a pattern without a separator lies on one side of it.
-/

namespace Multipart

/-- A body, or a stretch of one. -/
abbrev Bytes := List UInt8

/-- The UTF-8 bytes of a text. -/
def asBytes (s : String) : Bytes :=
  s.toByteArray.data.toList

/-- The text that bytes are the UTF-8 of, where they are. -/
def fromUtf8 (bytes : Bytes) : Option String :=
  String.fromUTF8? ⟨bytes.toArray⟩

/-- Text is read back off its bytes. -/
@[simp] theorem fromUtf8_asBytes (s : String) : fromUtf8 (asBytes s) = some s := by
  have hs : (⟨(asBytes s).toArray⟩ : ByteArray) = s.toByteArray := by
    apply ByteArray.ext
    simp [asBytes]
  rw [fromUtf8, hs, String.fromUTF8?, dif_pos s.isValidUTF8]
  rfl

/-- Different texts have different bytes. -/
theorem asBytes_injective : Function.Injective asBytes := by
  intro s t h
  have hs := fromUtf8_asBytes s
  rw [h, fromUtf8_asBytes, Option.some.injEq] at hs
  exact hs.symm

/-- The bytes of a text are those of its characters. -/
theorem asBytes_eq (s : String) : asBytes s = s.toList.flatMap String.utf8EncodeChar := by
  rw [asBytes, ← String.utf8Encode_toList, List.utf8Encode, List.data_toByteArray,
    List.toList_toArray]

/-- A text has no more characters than bytes. -/
theorem length_le_asBytes (s : String) : s.toList.length ≤ (asBytes s).length := by
  rw [asBytes_eq]
  induction s.toList with
  | nil => exact Nat.le_refl 0
  | cons c cs ih =>
    have hc : 0 < (String.utf8EncodeChar c).length := by
      rw [String.length_utf8EncodeChar]
      exact Char.utf8Size_pos c
    simp only [List.flatMap_cons, List.length_cons, List.length_append]
    omega

/-- An ASCII byte is written for its own character only. -/
theorem mem_utf8EncodeChar {c d : Char} (hd : d.val.toNat ≤ 127)
    (h : UInt8.ofNat d.val.toNat ∈ String.utf8EncodeChar c) : c = d := by
  have hbound : ∀ n : Nat, n < 256 → 128 ≤ n → UInt8.ofNat d.val.toNat ≠ UInt8.ofNat n := by
    intro n hn hge heq
    have := congrArg UInt8.toNat heq
    simp only [UInt8.toNat_ofNat'] at this
    omega
  unfold String.utf8EncodeChar at h
  simp only at h
  split_ifs at h with h1 h2 h3
  · have hcd : c.val.toNat = d.val.toNat := by
      have := congrArg UInt8.toNat (List.mem_singleton.mp h)
      simp only [UInt8.toNat_ofNat'] at this
      omega
    exact Char.ext (UInt32.toNat_inj.mp hcd)
  all_goals
    simp only [List.mem_cons, List.not_mem_nil, or_false] at h
    have hcase := fun n (hn : n < 256) (hge : 128 ≤ n) => hbound n hn hge
    exfalso
  · rcases h with h | h
    · exact hcase _ (by omega) (by omega) h
    · exact hcase _ (by omega) (by omega) h
  · rcases h with h | h | h
    · exact hcase _ (by omega) (by omega) h
    · exact hcase _ (by omega) (by omega) h
    · exact hcase _ (by omega) (by omega) h
  · rcases h with h | h | h | h
    · exact hcase _ (by omega) (by omega) h
    · exact hcase _ (by omega) (by omega) h
    · exact hcase _ (by omega) (by omega) h
    · exact hcase _ (by omega) (by omega) h

/-- An ASCII byte stands in a text's bytes only where its character stands in the text. -/
theorem mem_asBytes {s : String} {d : Char} (hd : d.val.toNat ≤ 127)
    (h : UInt8.ofNat d.val.toNat ∈ asBytes s) : d ∈ s.toList := by
  rw [asBytes_eq, List.mem_flatMap] at h
  obtain ⟨c, hc, hb⟩ := h
  rwa [← mem_utf8EncodeChar hd hb]

/-- A pattern that does not hold the separator lies on one side of it. -/
theorem infix_of_infix_sep {α : Type*} {p xs ys : List α} {c : α} (hc : c ∉ p)
    (h : p <:+: xs ++ c :: ys) : p <:+: xs ∨ p <:+: ys := by
  rcases List.infix_append_iff.mp h with h | h | ⟨l₁, l₂, rfl, h₁, h₂⟩
  · exact .inl h
  · rcases List.infix_cons_iff.mp h with h | h
    · cases p with
      | nil => exact .inl (List.nil_infix)
      | cons d p =>
        obtain ⟨rfl, -⟩ := List.cons_prefix_cons.mp h
        simp at hc
    · exact .inr h
  · cases l₂ with
    | nil => exact .inl (by simpa using h₁.isInfix)
    | cons d l₂ =>
      obtain ⟨rfl, -⟩ := List.cons_prefix_cons.mp h₂
      simp at hc

/-- A pattern holds no element that the list it lies in does not hold. -/
theorem not_infix_of_not_mem {α : Type*} {p xs : List α} {c : α} (hp : c ∈ p) (hx : c ∉ xs) :
    ¬ p <:+: xs := fun h => hx (h.subset hp)

end Multipart
