/-
# XmsgImXsc.WebSocketDataFrame -- data frames of any length

A data frame is scanned as its payload when `decode` takes it, and rejected when its length is
in the 64-bit form, when it is empty in the 7-bit form, or when it is over the mtu
(`DataFrame.frameScan_bytes`).  And whatever is scanned as a payload is a data frame
(`exists_dataFrame`).

`ClientFrame` has only what a client library sends, a payload of 1 to 65535 bytes.  A peer may
send any other data frame, so what `decode` makes of arbitrary bytes is said with `DataFrame`.
The common frames are reduced to `ClientFrame` (`DataFrame.toClientFrame`), and the empty one
in the 16-bit form and the rejected ones are treated by themselves.
-/
import XmsgImXsc.WebSocketDecode

namespace XmsgImXsc

open Scanning

/-! ## The frames of a client, of any length -/

/-- The forms of the length of a frame. -/
inductive LenForm where
  | bit7
  | bit16
  | bit64
  deriving Repr, DecidableEq

namespace LenForm

/-- The longest payload. -/
def max : LenForm → Nat
  | .bit7 => 125
  | .bit16 => 0xFFFF
  | .bit64 => 0x7FFFFFFFFFFFFFFF

/-- The second byte of a masked frame, and the length in network order behind it. -/
def bytes : LenForm → Nat → Bytes
  | .bit7, n => [UInt8.ofNat (128 + n)]
  | .bit16, n => [0xFE, UInt8.ofNat (n / 256), UInt8.ofNat (n % 256)]
  | .bit64, n => 0xFF :: (List.range 8).map fun i => UInt8.ofNat (n >>> (8 * (7 - i)))

end LenForm

/-- A complete, final, masked TEXT or BINARY frame. -/
structure DataFrame where
  fst : UInt8
  form : LenForm
  mask : Bytes
  payload : Bytes
  fin : fst &&& 0x80 ≠ 0
  opcode : fst &&& 0x0F = WS_FRAME_TEXT ∨ fst &&& 0x0F = WS_FRAME_BINARY
  mask_length : mask.length = 4
  fits : payload.length ≤ form.max

/-- The frame on the wire. -/
def DataFrame.bytes (f : DataFrame) : Bytes :=
  f.fst :: (f.form.bytes f.payload.length ++ (f.mask ++ applyMask f.mask f.payload))

/-! ## What `decode` makes of a data frame

The first two bytes decide between rejecting, stepping over and taking a frame. -/

/-- `decode` takes no length in the 64-bit form, no empty frame in the 7-bit form and no frame
over the mtu. -/
def DataFrame.Taken (mtu : Nat) (f : DataFrame) : Prop :=
  f.form ≠ .bit64 ∧ (f.form = .bit7 → f.payload ≠ []) ∧ f.bytes.length ≤ mtu

instance (mtu : Nat) (f : DataFrame) : Decidable (f.Taken mtu) :=
  inferInstanceAs (Decidable (_ ∧ _ ∧ _))

/-- The tests on the first two bytes, for the opcode of a data frame. -/
theorem frameHead_of_opcode {b0 : UInt8} (hfin : b0 &&& 0x80 ≠ 0)
    (hop : b0 &&& 0x0F = WS_FRAME_TEXT ∨ b0 &&& 0x0F = WS_FRAME_BINARY) (b1 : UInt8) :
    frameHead b0 b1 =
      if b1 &&& 0x80 = 0 ∨ b1 = 0x80 ∨ b1 = 0xFF then .reject else .data := by
  have hclose : b0 &&& 0x0F ≠ WS_FRAME_CLOSE := by
    rcases hop with hop | hop <;> rw [hop] <;> decide
  have hskip : ¬ (b0 &&& 0x0F = WS_FRAME_CONTINUATION ∨ b0 &&& 0x0F = WS_FRAME_PING ∨
      b0 &&& 0x0F = WS_FRAME_PONG) := by
    rcases hop with hop | hop <;> rw [hop] <;> decide
  unfold frameHead
  dsimp only
  rw [if_neg hfin, if_neg hclose, if_neg hskip, if_pos hop]
  by_cases hmask : b1 &&& 0x80 = 0
  · rw [if_pos hmask, if_pos (.inl hmask)]
  · by_cases hempty : b1 = 0x80
    · rw [if_neg hmask, if_pos hempty, if_pos (.inr (.inl hempty))]
    · by_cases hlong : b1 = 0xFF
      · rw [if_neg hmask, if_neg hempty, if_pos hlong, if_pos (.inr (.inr hlong))]
      · rw [if_neg hmask, if_neg hempty, if_neg hlong, if_neg (by tauto)]

/-- The converse. -/
theorem opcode_of_frameHead_data {b0 b1 : UInt8} (h : frameHead b0 b1 = .data) :
    b0 &&& 0x80 ≠ 0 ∧ (b0 &&& 0x0F = WS_FRAME_TEXT ∨ b0 &&& 0x0F = WS_FRAME_BINARY) ∧
      b1 &&& 0x80 ≠ 0 ∧ b1 ≠ 0x80 ∧ b1 ≠ 0xFF := by
  unfold frameHead at h
  dsimp only at h
  split at h
  · cases h
  next hfin =>
  split at h
  · cases h
  next hmask =>
  split at h
  · cases h
  split at h
  · cases h
  split at h
  · next hop =>
    split at h
    · cases h
    · next hempty =>
      split at h
      · cases h
      · next hlong => exact ⟨hfin, hop, hmask, hempty, hlong⟩
  · cases h

/-- What `decode` steps over: final and masked, by its opcode a continuation, PING or PONG. -/
theorem frameHead_skip_iff {b0 b1 : UInt8} : frameHead b0 b1 = .skip ↔
    b0 &&& 0x80 ≠ 0 ∧ b1 &&& 0x80 ≠ 0 ∧ (b0 &&& 0x0F = WS_FRAME_CONTINUATION ∨
      b0 &&& 0x0F = WS_FRAME_PING ∨ b0 &&& 0x0F = WS_FRAME_PONG) := by
  constructor
  · intro h
    unfold frameHead at h
    dsimp only at h
    split at h
    · cases h
    next hfin =>
    split at h
    · cases h
    next hmask =>
    split at h
    · cases h
    split at h
    · next hop => exact ⟨hfin, hmask, hop⟩
    · split at h
      · split at h
        · cases h
        · split at h <;> cases h
      · cases h
  · rintro ⟨hfin, hmask, hop⟩
    have hclose : b0 &&& 0x0F ≠ WS_FRAME_CLOSE := by
      rcases hop with hop | hop | hop <;> rw [hop] <;> decide
    unfold frameHead
    dsimp only
    rw [if_neg hfin, if_neg hmask, if_neg hclose, if_pos hop]

/-- A frame over the mtu is rejected, whatever follows it. -/
theorem ClientFrame.frameScan_over {mtu : Nat} {f : ClientFrame} (hmtu : mtu < f.size)
    (r : Bytes) : frameScan mtu (f.bytes ++ r) = .bad := by
  have hlen : f.bytes.length = f.size := f.bytes_length
  have hsize := f.frameSize_bytes
  have hhead := headLength_le_frameOfst f.bytes
  have hofst := frameOfst_le_frameSize f.bytes
  have hfour := four_le_frameOfst f.bytes
  have hsame : headLength (f.bytes ++ r) = headLength f.bytes := by
    unfold headLength
    rw [byteAt_append r (by omega)]
  have hdata : frameHead (byteAt f.bytes 0) (byteAt f.bytes 1) = .data := f.frameHead_data
  unfold frameScan
  rw [List.length_append, if_neg (by omega), frameHead_append r (by omega), hdata]
  dsimp only
  rw [hsame, if_neg (by omega), frameSize_append r (by omega) (by omega), hsize, if_pos hmtu]

namespace DataFrame

variable (f : DataFrame)

/-- The frame as one of those whose payload is not empty and whose length is in one of the
first two forms. -/
def toClientFrame (hform : f.form ≠ .bit64) (hpos : 0 < f.payload.length) : ClientFrame where
  fst := f.fst
  ext := f.form = .bit16
  mask := f.mask
  payload := f.payload
  fin := f.fin
  opcode := f.opcode
  mask_length := f.mask_length
  pos := hpos
  short := by
    intro hext
    have hfits := f.fits
    cases hf : f.form with
    | bit7 =>
        rw [hf] at hfits
        exact hfits
    | bit16 => simp [hf] at hext
    | bit64 => exact absurd hf hform
  long := by
    have hfits := f.fits
    cases hf : f.form with
    | bit7 =>
        rw [hf] at hfits
        exact Nat.le_trans hfits (by decide)
    | bit16 =>
        rw [hf] at hfits
        exact hfits
    | bit64 => exact absurd hf hform

/-- It has the same bytes. -/
theorem toClientFrame_bytes (hform : f.form ≠ .bit64) (hpos : 0 < f.payload.length) :
    (f.toClientFrame hform hpos).bytes = f.bytes := by
  obtain ⟨fst, form, mask, payload, hfin, hop, hmask, hfits⟩ := f
  cases form with
  | bit7 => rfl
  | bit16 => rfl
  | bit64 => exact absurd rfl hform

variable {f} {mtu : Nat}

/-- The 16-bit form of an empty payload. -/
theorem frameScan_empty16 {fst : UInt8} (hfin : fst &&& 0x80 ≠ 0)
    (hop : fst &&& 0x0F = WS_FRAME_TEXT ∨ fst &&& 0x0F = WS_FRAME_BINARY) {t : Bytes}
    (ht : 4 ≤ t.length) :
    frameScan mtu (fst :: 0xFE :: 0 :: 0 :: t) =
      if mtu < 8 then .bad else .item (some []) 8 := by
  have hhead : frameHead (byteAt (fst :: 0xFE :: 0 :: 0 :: t) 0)
      (byteAt (fst :: 0xFE :: 0 :: 0 :: t) 1) = .data := frameHead_of_opcode hfin hop 0xFE
  have hlong : headLength (fst :: 0xFE :: 0 :: 0 :: t) = 4 := rfl
  have hsize : frameSize (fst :: 0xFE :: 0 :: 0 :: t) = 8 := rfl
  have hofst : frameOfst (fst :: 0xFE :: 0 :: 0 :: t) = 8 := rfl
  have hpayload : framePayload (fst :: 0xFE :: 0 :: 0 :: t) = [] := by
    unfold framePayload
    rw [hsize, hofst]
    exact List.take_zero
  have hlength : (fst :: 0xFE :: 0 :: 0 :: t).length = t.length + 4 := rfl
  unfold frameScan
  rw [if_neg (by omega), hhead]
  dsimp only
  rw [hlong, hsize, hpayload, if_neg (by omega)]
  by_cases hmtu : mtu < 8
  · rw [if_pos hmtu, if_pos hmtu]
  · rw [if_neg hmtu, if_neg hmtu, if_neg (by omega)]

theorem frameScan_reject {b0 b1 : UInt8} (h : frameHead b0 b1 = .reject) (t : Bytes) :
    frameScan mtu (b0 :: b1 :: t) = .bad := by
  have hlength : (b0 :: b1 :: t).length = t.length + 2 := rfl
  have hhead : frameHead (byteAt (b0 :: b1 :: t) 0) (byteAt (b0 :: b1 :: t) 1) = .reject := h
  unfold frameScan
  rw [if_neg (by omega), hhead]

/-- An empty frame in the 16-bit form is taken unless the mtu is below its eight bytes. -/
theorem frameScan_bytes_empty16 {f : DataFrame} (hform : f.form = .bit16) (hnil : f.payload = [])
    (r : Bytes) :
    frameScan mtu (f.bytes ++ r) =
      if f.Taken mtu then .item (some f.payload) f.bytes.length else .bad := by
  obtain ⟨fst, form, mask, payload, hfin, hop, hmask, hfits⟩ := f
  subst hform hnil
  have hbytes : (mk fst .bit16 mask [] hfin hop hmask hfits).bytes =
      fst :: 0xFE :: 0 :: 0 :: mask := by
    show fst :: 0xFE :: UInt8.ofNat (0 / 256) :: UInt8.ofNat (0 % 256) :: (mask ++ []) = _
    rw [List.append_nil]
    rfl
  have hlen : (mk fst .bit16 mask [] hfin hop hmask hfits).bytes.length = 8 := by
    rw [hbytes, List.length_cons, List.length_cons, List.length_cons, List.length_cons, hmask]
  have hscan : frameScan mtu ((mk fst .bit16 mask [] hfin hop hmask hfits).bytes ++ r) =
      if mtu < 8 then .bad else .item (some []) 8 := by
    have ht : 4 ≤ (mask ++ r).length := by
      rw [List.length_append]
      omega
    rw [hbytes]
    exact frameScan_empty16 hfin hop ht
  rw [hscan]
  by_cases hmtu : mtu < 8
  · rw [if_pos hmtu, if_neg]
    intro h
    have hle := h.2.2
    omega
  · have htaken : (mk fst .bit16 mask [] hfin hop hmask hfits).Taken mtu := by
      refine ⟨?_, ?_, by omega⟩
      · intro (habs : LenForm.bit16 = .bit64)
        cases habs
      · intro (habs : LenForm.bit16 = .bit7)
        cases habs
    rw [if_neg hmtu, if_pos htaken, hlen]

/-- A frame is scanned as its payload if it is taken, and else rejected, whatever follows. -/
theorem frameScan_bytes (f : DataFrame) (r : Bytes) :
    frameScan mtu (f.bytes ++ r) =
      if f.Taken mtu then .item (some f.payload) f.bytes.length else .bad := by
  by_cases hpos : f.form ≠ .bit64 ∧ 0 < f.payload.length
  · obtain ⟨hform, hpos⟩ := hpos
    have hbytes := f.toClientFrame_bytes hform hpos
    have hlen := (f.toClientFrame hform hpos).bytes_length
    rw [hbytes] at hlen
    by_cases hmtu : f.bytes.length ≤ mtu
    · have htaken : f.Taken mtu := ⟨hform, fun _ => List.ne_nil_of_length_pos hpos, hmtu⟩
      rw [if_pos htaken, ← hbytes, ClientFrame.frameScan_bytes (by omega), hbytes, hlen]
      rfl
    · have hnot : ¬ f.Taken mtu := fun h => hmtu h.2.2
      rw [if_neg hnot, ← hbytes]
      exact ClientFrame.frameScan_over (by omega) r
  · -- the second byte alone decides, except for an empty frame in the 16-bit form
    cases hform : f.form with
    | bit64 =>
        rw [if_neg fun h => h.1 hform]
        unfold bytes
        rw [hform]
        exact frameScan_reject (frameHead_of_opcode f.fin f.opcode 0xFF) _
    | bit7 =>
        have hnil : f.payload = [] := by simpa [hform] using hpos
        rw [if_neg fun h => h.2.1 hform hnil]
        unfold bytes
        rw [hform, hnil]
        exact frameScan_reject (frameHead_of_opcode f.fin f.opcode 0x80) _
    | bit16 =>
        have hnil : f.payload = [] := by simpa [hform] using hpos
        exact frameScan_bytes_empty16 hform hnil r

end DataFrame

/-! ## What `decode` takes for a data frame is one

The frame is read back from the bytes: masking is its own inverse, so the payload that is
handed over, masked again, gives the bytes of the buffer. -/

theorem lenByte_of_short {b : UInt8} (hmask : b &&& 0x80 ≠ 0) (hshort : b < 0xFE) :
    (b &&& 0x7F).toNat ≤ 125 ∧ UInt8.ofNat (128 + (b &&& 0x7F).toNat) = b := by
  have hall : ∀ n : Fin 256, UInt8.ofNat n.val &&& 0x80 ≠ 0 → UInt8.ofNat n.val < 0xFE →
      (UInt8.ofNat n.val &&& 0x7F).toNat ≤ 125 ∧
        UInt8.ofNat (128 + (UInt8.ofNat n.val &&& 0x7F).toNat) = UInt8.ofNat n.val := by
    decide +kernel
  have h := hall ⟨b.toNat, b.toNat_lt⟩
  rw [UInt8.ofNat_toNat] at h
  exact h hmask hshort

theorem byte_eq_fe {b : UInt8} (hshort : ¬ b < 0xFE) (hlong : b ≠ 0xFF) : b = 0xFE := by
  rw [UInt8.lt_iff_toNat_lt] at hshort
  have hne : b.toNat ≠ (0xFF : UInt8).toNat := fun heq => hlong (UInt8.toNat_inj.mp heq)
  have hlt := b.toNat_lt
  apply UInt8.toNat_inj.mp
  have hff : (0xFF : UInt8).toNat = 255 := rfl
  have hfe : (0xFE : UInt8).toNat = 254 := rfl
  omega

/-- The two length bytes of a number that is read from two bytes. -/
theorem extBytes_of (b2 b3 : UInt8) :
    UInt8.ofNat ((256 * b2.toNat + b3.toNat) / 256) = b2 ∧
      UInt8.ofNat ((256 * b2.toNat + b3.toNat) % 256) = b3 := by
  have h3 := b3.toNat_lt
  constructor
  · rw [Nat.mul_add_div (by decide), Nat.div_eq_of_lt h3, Nat.add_zero, UInt8.ofNat_toNat]
  · rw [Nat.mul_add_mod, Nat.mod_eq_of_lt h3, UInt8.ofNat_toNat]

/-- Masking twice is not masking. -/
theorem applyMask_applyMask (mask payload : Bytes) :
    applyMask mask (applyMask mask payload) = payload := by
  unfold applyMask
  apply List.ext_getElem
  · simp
  · intro i h1 h2
    rw [List.getElem_mapIdx, List.getElem_mapIdx, UInt8.xor_assoc, UInt8.xor_self,
      UInt8.xor_zero]

/-- A frame of a header, and the mask and the masked payload that stand behind it. -/
theorem exists_dataFrame_of {b0 : UInt8} (hfin : b0 &&& 0x80 ≠ 0)
    (hop : b0 &&& 0x0F = WS_FRAME_TEXT ∨ b0 &&& 0x0F = WS_FRAME_BINARY) (form : LenForm)
    {n : Nat} (hfits : n ≤ form.max) {t : Bytes} (ht : 4 + n ≤ t.length) :
    ∃ (f : DataFrame) (rest : Bytes), b0 :: (form.bytes n ++ t) = f.bytes ++ rest := by
  have hmask : (t.take 4).length = 4 := List.length_take_of_le (by omega)
  have hlen : (applyMask (t.take 4) ((t.drop 4).take n)).length = n := by
    unfold applyMask
    rw [List.length_mapIdx, List.length_take_of_le (by rw [List.length_drop]; omega)]
  refine ⟨⟨b0, form, t.take 4, applyMask (t.take 4) ((t.drop 4).take n), hfin, hop, hmask,
    by rw [hlen]; exact hfits⟩, (t.drop 4).drop n, ?_⟩
  unfold DataFrame.bytes
  dsimp only
  rw [hlen, applyMask_applyMask, List.cons_append, List.append_assoc, List.append_assoc,
    List.take_append_drop, List.take_append_drop]

/-- A header with the length in its second byte. -/
theorem exists_dataFrame_bit7 {b0 b1 : UInt8} (hfin : b0 &&& 0x80 ≠ 0)
    (hop : b0 &&& 0x0F = WS_FRAME_TEXT ∨ b0 &&& 0x0F = WS_FRAME_BINARY) (hmask : b1 &&& 0x80 ≠ 0)
    (hshort : b1 < 0xFE) {t : Bytes} (hsize : frameSize (b0 :: b1 :: t) ≤ t.length + 2) :
    ∃ (f : DataFrame) (rest : Bytes), b0 :: b1 :: t = f.bytes ++ rest := by
  obtain ⟨hfits, hb1⟩ := lenByte_of_short hmask hshort
  have hsame : frameSize (b0 :: b1 :: t) = 1 + 1 + 4 + (b1 &&& 0x7F).toNat := if_pos hshort
  rw [hsame] at hsize
  obtain ⟨f, rest, hf⟩ := exists_dataFrame_of hfin hop .bit7 hfits
    (by omega : 4 + (b1 &&& 0x7F).toNat ≤ t.length)
  refine ⟨f, rest, ?_⟩
  rw [← hf]
  show _ = b0 :: UInt8.ofNat (128 + (b1 &&& 0x7F).toNat) :: t
  rw [hb1]

/-- A header with the length in the two bytes behind it. -/
theorem exists_dataFrame_bit16 {b0 : UInt8} (hfin : b0 &&& 0x80 ≠ 0)
    (hop : b0 &&& 0x0F = WS_FRAME_TEXT ∨ b0 &&& 0x0F = WS_FRAME_BINARY) {t : Bytes}
    (hsize : frameSize (b0 :: 0xFE :: t) ≤ t.length + 2) :
    ∃ (f : DataFrame) (rest : Bytes), b0 :: 0xFE :: t = f.bytes ++ rest := by
  have hofst : frameOfst (b0 :: 0xFE :: t) = 8 := rfl
  have hle := frameOfst_le_frameSize (b0 :: 0xFE :: t)
  rw [hofst] at hle
  match t, (by omega : 2 ≤ t.length) with
  | b2 :: b3 :: t, _ =>
      obtain ⟨hb2, hb3⟩ := extBytes_of b2 b3
      have h2 := b2.toNat_lt
      have h3 := b3.toNat_lt
      have hsame : frameSize (b0 :: 0xFE :: b2 :: b3 :: t) =
          1 + 3 + 4 + (256 * b2.toNat + b3.toNat) := rfl
      rw [hsame, List.length_cons, List.length_cons] at hsize
      have hfits : 256 * b2.toNat + b3.toNat ≤ LenForm.bit16.max := by
        show _ ≤ 65535
        omega
      obtain ⟨f, rest, hf⟩ := exists_dataFrame_of hfin hop .bit16 hfits
        (by omega : 4 + (256 * b2.toNat + b3.toNat) ≤ t.length)
      refine ⟨f, rest, ?_⟩
      rw [← hf]
      show _ = b0 :: 0xFE :: UInt8.ofNat ((256 * b2.toNat + b3.toNat) / 256) ::
        UInt8.ofNat ((256 * b2.toNat + b3.toNat) % 256) :: t
      rw [hb2, hb3]

/-- Whatever is scanned as a payload is a data frame that is taken. -/
theorem exists_dataFrame {mtu : Nat} {dat p : Bytes} {n : Nat}
    (h : frameScan mtu dat = .item (some p) n) :
    ∃ f : DataFrame, f.Taken mtu ∧ f.payload = p ∧ f.bytes.length = n ∧
      dat = f.bytes ++ dat.drop n := by
  obtain ⟨f, rest, hdat⟩ : ∃ (f : DataFrame) (rest : Bytes), dat = f.bytes ++ rest := by
    obtain ⟨hlen, ⟨-, habs, -⟩ | ⟨hhead, -, -, -, hsize⟩⟩ := frameScan_item h
    · cases habs
    · match dat, hlen with
      | b0 :: b1 :: t, _ =>
          have hdata : frameHead b0 b1 = .data := hhead
          obtain ⟨hfin, hop, hmask, -, hlong⟩ := opcode_of_frameHead_data hdata
          rw [List.length_cons, List.length_cons] at hsize
          by_cases hshort : b1 < 0xFE
          · exact exists_dataFrame_bit7 hfin hop hmask hshort hsize
          · obtain rfl : b1 = 0xFE := byte_eq_fe hshort hlong
            exact exists_dataFrame_bit16 hfin hop hsize
  -- what the scanner made of the bytes it made of this frame
  have hscan : frameScan mtu (f.bytes ++ rest) = _ := f.frameScan_bytes rest
  rw [← hdat, h] at hscan
  by_cases htaken : f.Taken mtu
  · rw [if_pos htaken] at hscan
    cases hscan
    refine ⟨f, htaken, rfl, rfl, ?_⟩
    rw [hdat, List.drop_left]
  · rw [if_neg htaken] at hscan
    cases hscan

end XmsgImXsc
