import Mathlib.Tactic

/-!
# Byte buffers that are overwritten from the front

`overlay written buffer` is the content of a buffer after a write that stored
`written` at its start and left the bytes behind it alone.  `strncmp` is the C
comparison of a NUL-terminated string with the start of such a buffer.  A
comparison after an overlay sees either the new bytes only, or a mixture of
the new bytes with what an earlier write left behind.
-/

namespace ByteBuffer

/-- The C library comparison of at most `limit` bytes: the difference of the
first two bytes that differ, and zero where none of the compared bytes do or
both strings end. -/
def strncmp : List UInt8 → List UInt8 → ℕ → ℤ
  | _, _, 0 => 0
  | left, right, limit + 1 =>
      let leftByte := left.headD 0
      let rightByte := right.headD 0
      if leftByte ≠ rightByte then
        (leftByte.toNat : ℤ) - rightByte.toNat
      else if leftByte = 0 then 0
      else strncmp left.tail right.tail limit

def overlay (written buffer : List UInt8) : List UInt8 :=
  written ++ buffer.drop written.length

theorem toNat_sub_toNat_ne_zero {left right : UInt8} (hne : left ≠ right) :
    (left.toNat : ℤ) - right.toNat ≠ 0 := by
  intro hzero
  apply hne
  apply UInt8.toNat_inj.mp
  omega

theorem strncmp_length_eq_zero_iff
    {text buffer : List UInt8} (htext : ∀ byte ∈ text, byte ≠ 0) :
    strncmp text buffer text.length = 0 ↔ text <+: buffer := by
  induction text generalizing buffer with
  | nil => simp [strncmp]
  | cons byte rest ih =>
      have hbyte : byte ≠ 0 := htext byte (by simp)
      have hrest : ∀ other ∈ rest, other ≠ 0 := fun other hother =>
        htext other (by simp [hother])
      cases buffer with
      | nil =>
          have hne := toNat_sub_toNat_ne_zero hbyte
          simpa [strncmp, hbyte] using hne
      | cons first others =>
          by_cases heq : byte = first
          · subst first
            simp [strncmp, hbyte, ih hrest, List.cons_prefix_cons]
          · have hne := toNat_sub_toNat_ne_zero heq
            simpa [strncmp, heq, List.cons_prefix_cons] using hne

theorem overlay_length
    {written buffer : List UInt8} (hfits : written.length ≤ buffer.length) :
    (overlay written buffer).length = buffer.length := by
  simp [overlay, hfits]

theorem overlay_getElem? (written buffer : List UInt8) (position : ℕ) :
    (overlay written buffer)[position]? =
      if position < written.length then written[position]?
      else buffer[position]? := by
  unfold overlay
  split
  next hlt => rw [List.getElem?_append_left hlt]
  next hge =>
    have hle : written.length ≤ position := Nat.le_of_not_lt hge
    rw [List.getElem?_append_right hle, List.getElem?_drop]
    congr 1
    omega

/-- What a comparison sees after an overlay: a text no longer than the new
bytes is compared with them, and a longer text is completed by old bytes. -/
theorem prefix_overlay_iff {text written buffer : List UInt8} :
    text <+: overlay written buffer ↔
      text <+: written ∨
        (written.length < text.length ∧ written <+: text ∧
          ∀ position, position < text.length → written.length ≤ position →
            buffer[position]? = text[position]?) := by
  constructor
  · intro hstarts
    by_cases hlength : text.length ≤ written.length
    · left
      exact List.prefix_of_prefix_length_le hstarts
        (List.prefix_append _ _) hlength
    · right
      have hlt : written.length < text.length := Nat.lt_of_not_le hlength
      refine ⟨hlt, ?_, ?_⟩
      · exact List.prefix_of_prefix_length_le
          (List.prefix_append _ _) hstarts hlt.le
      · intro position hposition hle
        have hbyte := List.prefix_iff_getElem?.mp hstarts position hposition
        rw [overlay_getElem?, if_neg (Nat.not_lt.mpr hle)] at hbyte
        rw [hbyte, List.getElem?_eq_getElem hposition]
  · rintro (hstarts | ⟨_, hwritten, hold⟩)
    · exact hstarts.trans (List.prefix_append _ _)
    · rw [List.prefix_iff_getElem?]
      intro position hposition
      rw [overlay_getElem?]
      split
      next hlt =>
        have hbyte := List.prefix_iff_getElem?.mp hwritten position hlt
        rw [List.getElem?_eq_getElem hlt, ← hbyte,
          List.getElem?_eq_getElem hposition]
      next hge =>
        rw [hold position hposition (Nat.le_of_not_lt hge),
          List.getElem?_eq_getElem hposition]

end ByteBuffer
