/-
# Wire -- the protocol-buffer wire format

Base-128 varints and length-delimited strings, each with a writer, a reader and three
facts that message proofs need: the reader undoes the writer, reading does not depend on
what follows, and what is read is never shorter on the wire than its written form.

`Runtime` lists what the code generated for a message calls of the protocol-buffer
library.  `Runtime.Documented` says what that library promises about it in terms of the
encodings, and `reference` is a runtime that keeps the promises.
-/
import Mathlib.Data.List.Basic
import Mathlib.Tactic.Ring

namespace Wire

/-! ## Base-128 varints -/

/-- Seven bits a byte, least significant first; every byte but the last is 128 too large. -/
def varint (n : Nat) : List UInt8 :=
  if n < 128 then [UInt8.ofNat n] else UInt8.ofNat (n % 128 + 128) :: varint (n / 128)
termination_by n
decreasing_by omega

/-- A varint of at most so many bytes, and what follows it. -/
def readVarint : Nat → List UInt8 → Option (Nat × List UInt8)
  | 0, _ => none
  | _ + 1, [] => none
  | k + 1, b :: bs =>
      if b.toNat < 128 then some (b.toNat, bs)
      else (readVarint k bs).map fun p => (b.toNat - 128 + 128 * p.1, p.2)

theorem varint_small {n : Nat} (h : n < 128) : varint n = [UInt8.ofNat n] := by
  rw [varint, if_pos h]

theorem varint_large {n : Nat} (h : 128 ≤ n) :
    varint n = UInt8.ofNat (n % 128 + 128) :: varint (n / 128) := by
  rw [varint, if_neg (Nat.not_lt.mpr h)]

theorem toNat_ofNat_of_lt {n : Nat} (h : n < 256) : (UInt8.ofNat n).toNat = n := by
  rw [UInt8.toNat_ofNat']
  exact Nat.mod_eq_of_lt h

theorem varint_length_pos (n : Nat) : 0 < (varint n).length := by
  rw [varint]
  split <;> simp

/-- A longer number has a longer varint. -/
theorem varint_length_mono {m n : Nat} (h : m ≤ n) :
    (varint m).length ≤ (varint n).length := by
  induction n using Nat.strongRecOn generalizing m with
  | ind n ih =>
      by_cases hn : n < 128
      · rw [varint_small hn, varint_small (by omega)]
        simp
      · rw [varint_large (n := n) (by omega)]
        by_cases hm : m < 128
        · rw [varint_small hm]
          simp
        · rw [varint_large (n := m) (by omega)]
          have hdiv : m / 128 ≤ n / 128 := Nat.div_le_div_right h
          have := ih (n / 128) (by omega) hdiv
          simpa using this

/-- Reading gives back the number written, whatever follows. -/
theorem readVarint_varint {k n : Nat} (h : n < 128 ^ (k + 1)) (rest : List UInt8) :
    readVarint (k + 1) (varint n ++ rest) = some (n, rest) := by
  induction k generalizing n with
  | zero =>
      have hn : n < 128 := by simpa using h
      rw [varint_small hn]
      simp [readVarint, toNat_ofNat_of_lt (show n < 256 by omega), hn]
  | succ k ih =>
      by_cases hn : n < 128
      · rw [varint_small hn]
        simp [readVarint, toNat_ofNat_of_lt (show n < 256 by omega), hn]
      · have hdiv : n / 128 < 128 ^ (k + 1) := by
          rw [Nat.div_lt_iff_lt_mul (by omega)]
          simpa [Nat.pow_succ] using h
        have hbyte : (UInt8.ofNat (n % 128 + 128)).toNat = n % 128 + 128 :=
          toNat_ofNat_of_lt (by omega)
        have hsum : n % 128 + 128 - 128 + 128 * (n / 128) = n := by omega
        rw [varint_large (by omega), List.cons_append, readVarint, hbyte,
          if_neg (by omega), ih hdiv, Option.map_some, hsum]

/-- What a varint is read as does not depend on what follows it. -/
theorem readVarint_append {k : Nat} {b r : List UInt8} {n : Nat}
    (h : readVarint k b = some (n, r)) (c : List UInt8) :
    readVarint k (b ++ c) = some (n, r ++ c) := by
  induction k generalizing b n with
  | zero => simp [readVarint] at h
  | succ k ih =>
      cases b with
      | nil => simp [readVarint] at h
      | cons b bs =>
          rw [List.cons_append]
          unfold readVarint at h ⊢
          split at h
          · rename_i hb
            obtain ⟨rfl, rfl⟩ := by simpa using h
            rw [if_pos hb]
          · rename_i hb
            obtain ⟨⟨m, r'⟩, hread, hp⟩ := Option.map_eq_some_iff.mp h
            obtain ⟨rfl, rfl⟩ := by simpa using hp
            rw [if_neg hb, ih hread]
            rfl

/-- The varint written is the shortest that is read as the number. -/
theorem readVarint_length {k : Nat} {b r : List UInt8} {n : Nat}
    (h : readVarint k b = some (n, r)) : (varint n).length + r.length ≤ b.length := by
  induction k generalizing b n with
  | zero => simp [readVarint] at h
  | succ k ih =>
      cases b with
      | nil => simp [readVarint] at h
      | cons b bs =>
          unfold readVarint at h
          split at h
          · rename_i hb
            obtain ⟨rfl, rfl⟩ := by simpa using h
            rw [varint_small hb]
            simp [Nat.add_comm]
          · rename_i hb
            obtain ⟨⟨m, r'⟩, hread, hp⟩ := Option.map_eq_some_iff.mp h
            obtain ⟨rfl, rfl⟩ := by simpa using hp
            have hrec := ih hread
            have hlt : b.toNat < 256 := b.toNat_lt
            -- one byte for the low seven bits, and the rest is the varint of the quotient
            by_cases hsmall : b.toNat - 128 + 128 * m < 128
            · rw [varint_small hsmall]
              have := varint_length_pos m
              simp only [List.length_cons, List.length_nil]
              omega
            · rw [varint_large (by omega),
                show (b.toNat - 128 + 128 * m) / 128 = m by omega]
              simp only [List.length_cons]
              omega

/-- A varint of at most `k` bytes holds at most `7 * k` bits. -/
theorem readVarint_lt {k : Nat} {b r : List UInt8} {n : Nat}
    (h : readVarint k b = some (n, r)) : n < 128 ^ k := by
  induction k generalizing b n with
  | zero => simp [readVarint] at h
  | succ k ih =>
      cases b with
      | nil => simp [readVarint] at h
      | cons b bs =>
          have hpos : 0 < 128 ^ k := Nat.pow_pos (by omega)
          rw [Nat.pow_succ]
          unfold readVarint at h
          split at h
          · obtain ⟨rfl, rfl⟩ := by simpa using h
            omega
          · obtain ⟨⟨m, r'⟩, hread, hp⟩ := Option.map_eq_some_iff.mp h
            obtain ⟨rfl, rfl⟩ := by simpa using hp
            have hrec := ih hread
            have hlt : b.toNat < 256 := b.toNat_lt
            omega

/-! ## Length-delimited strings -/

/-- A string after its length. -/
def delimited (s : List UInt8) : List UInt8 := varint s.length ++ s

/-- A length of at most ten bytes and as many bytes as it says, and what follows. -/
def readDelimited (b : List UInt8) : Option (List UInt8 × List UInt8) :=
  match readVarint 10 b with
  | none => none
  | some (n, r) => if n ≤ r.length then some (r.take n, r.drop n) else none

/-- What was written is read back, with what follows it left. -/
theorem readDelimited_delimited {s : List UInt8} (h : s.length < 128 ^ 10)
    (rest : List UInt8) : readDelimited (delimited s ++ rest) = some (s, rest) := by
  rw [readDelimited, delimited, List.append_assoc, readVarint_varint h]
  simp

/-- A string that was read, with its length as it was read. -/
theorem readDelimited_cases {b s r : List UInt8} (h : readDelimited b = some (s, r)) :
    readVarint 10 b = some (s.length, s ++ r) := by
  rw [readDelimited] at h
  split at h
  · simp at h
  · rename_i n t hread
    split at h
    · rename_i hle
      obtain ⟨rfl, rfl⟩ := by simpa using h
      rw [hread, List.take_append_drop, List.length_take_of_le hle]
    · simp at h

theorem readDelimited_append {b s r : List UInt8} (h : readDelimited b = some (s, r))
    (c : List UInt8) : readDelimited (b ++ c) = some (s, r ++ c) := by
  have hread := readVarint_append (readDelimited_cases h) c
  rw [readDelimited, hread, List.append_assoc]
  simp

theorem readDelimited_length {b s r : List UInt8} (h : readDelimited b = some (s, r)) :
    (delimited s).length + r.length ≤ b.length := by
  have hread := readVarint_length (readDelimited_cases h)
  rw [delimited]
  simp only [List.length_append] at hread ⊢
  omega

/-! ## The library behind generated code -/

universe u

/-- A string as its UTF-8 bytes. -/
def utf8 (s : String) : List UInt8 := s.toUTF8.data.toList

/-- What generated code calls of the library, on inputs of at most `limit` bytes.  Every
reader returns what is left of the input; `U` is a field kept without being understood. -/
structure Runtime (U : Type u) where
  limit : Nat
  /-- The next tag, 0 where the input ends or no tag can be read. -/
  readTag : List UInt8 → Nat × List UInt8
  readUInt32 : List UInt8 → Option (UInt32 × List UInt8)
  /-- `ReadString` and `ReadBytes`. -/
  readBytes : List UInt8 → Option (List UInt8 × List UInt8)
  verifyUtf8 : List UInt8 → Bool
  skipField : Nat → List UInt8 → Option (U × List UInt8)
  writeUInt32 : Nat → UInt32 → List UInt8
  /-- `WriteString` and `WriteBytes`. -/
  writeBytes : Nat → List UInt8 → List UInt8
  writeUnknown : U → List UInt8
  uInt32Size : UInt32 → Nat
  /-- `StringSize` and `BytesSize`. -/
  bytesSize : List UInt8 → Nat
  unknownSize : U → Nat
  readTag_lt : ∀ {b}, (readTag b).1 ≠ 0 → (readTag b).2.length < b.length
  readUInt32_le : ∀ {b v r}, readUInt32 b = some (v, r) → r.length ≤ b.length
  readBytes_le : ∀ {b s r}, readBytes b = some (s, r) → r.length ≤ b.length
  skipField_le : ∀ {t b f r}, skipField t b = some (f, r) → r.length ≤ b.length

/-- What the library promises. -/
structure Runtime.Documented {U : Type u} (W : Runtime U) : Prop where
  readTag_nil : W.readTag [] = (0, [])
  readTag_varint : ∀ {tag} (rest), 8 ≤ tag → tag < 2 ^ 32 →
    (varint tag ++ rest).length ≤ W.limit → W.readTag (varint tag ++ rest) = (tag, rest)
  readTag_append : ∀ {b} (c), (W.readTag b).1 ≠ 0 → (b ++ c).length ≤ W.limit →
    W.readTag (b ++ c) = ((W.readTag b).1, (W.readTag b).2 ++ c)
  readTag_length : ∀ {b}, (W.readTag b).1 ≠ 0 →
    (varint (W.readTag b).1).length + (W.readTag b).2.length ≤ b.length
  readUInt32_varint : ∀ (v : UInt32) (rest), (varint v.toNat ++ rest).length ≤ W.limit →
    W.readUInt32 (varint v.toNat ++ rest) = some (v, rest)
  readUInt32_append : ∀ {b v r} (c), W.readUInt32 b = some (v, r) →
    (b ++ c).length ≤ W.limit → W.readUInt32 (b ++ c) = some (v, r ++ c)
  readUInt32_length : ∀ {b v r}, W.readUInt32 b = some (v, r) →
    (varint v.toNat).length + r.length ≤ b.length
  readBytes_delimited : ∀ (s rest), (delimited s ++ rest).length ≤ W.limit →
    W.readBytes (delimited s ++ rest) = some (s, rest)
  readBytes_append : ∀ {b s r} (c), W.readBytes b = some (s, r) →
    (b ++ c).length ≤ W.limit → W.readBytes (b ++ c) = some (s, r ++ c)
  readBytes_length : ∀ {b s r}, W.readBytes b = some (s, r) →
    (delimited s).length + r.length ≤ b.length
  skipField_append : ∀ {t b f r} (c), W.skipField t b = some (f, r) →
    (b ++ c).length ≤ W.limit → W.skipField t (b ++ c) = some (f, r ++ c)
  /-- A skipped field is written with the tag it was skipped under and skipped again. -/
  skipField_written : ∀ {t b f r} (rest), W.skipField t b = some (f, r) →
    (W.writeUnknown f ++ rest).length ≤ W.limit →
    ∃ b', W.readTag (W.writeUnknown f ++ rest) = (t, b') ∧
      W.skipField t b' = some (f, rest)
  skipField_length : ∀ {t b f r}, W.skipField t b = some (f, r) →
    (W.writeUnknown f).length + r.length ≤ (varint t).length + b.length
  writeUInt32_eq : ∀ number v,
    W.writeUInt32 number v = varint (number * 8) ++ varint v.toNat
  writeBytes_eq : ∀ number s, W.writeBytes number s = varint (number * 8 + 2) ++ delimited s
  uInt32Size_eq : ∀ v, W.uInt32Size v = (varint v.toNat).length
  bytesSize_eq : ∀ s, W.bytesSize s = (delimited s).length
  unknownSize_eq : ∀ f, W.unknownSize f = (W.writeUnknown f).length
  verifyUtf8_text : ∀ s, W.verifyUtf8 (utf8 s) = true

/-! ## A runtime -/

/-- `read` reads what `write` writes: what follows does not matter, what was read is read
again from its written form, and its written form is the shortest. -/
structure Reads {α : Type u} (write : α → List UInt8)
    (read : List UInt8 → Option (α × List UInt8)) : Prop where
  append : ∀ {b a r} (c), read b = some (a, r) → read (b ++ c) = some (a, r ++ c)
  written : ∀ {b a r} (rest), read b = some (a, r) → read (write a ++ rest) = some (a, rest)
  length : ∀ {b a r}, read b = some (a, r) → (write a).length + r.length ≤ b.length

/-- So many bytes, and what follows. -/
def readFixed (n : Nat) (b : List UInt8) : Option (List UInt8 × List UInt8) :=
  if n ≤ b.length then some (b.take n, b.drop n) else none

theorem readVarint_reads (k : Nat) : Reads varint (readVarint (k + 1)) where
  append c h := readVarint_append h c
  written rest h := readVarint_varint (readVarint_lt h) rest
  length h := readVarint_length h

theorem readDelimited_reads : Reads delimited readDelimited where
  append c h := readDelimited_append h c
  written rest h := readDelimited_delimited (readVarint_lt (readDelimited_cases h)) rest
  length h := readDelimited_length h

theorem readFixed_cases {n : Nat} {b s r : List UInt8} (h : readFixed n b = some (s, r)) :
    s.length = n ∧ b = s ++ r := by
  rw [readFixed] at h
  split at h
  · rename_i hle
    obtain ⟨rfl, rfl⟩ := by simpa using h
    exact ⟨List.length_take_of_le hle, (List.take_append_drop n b).symm⟩
  · simp at h

theorem readFixed_append (s r : List UInt8) : readFixed s.length (s ++ r) = some (s, r) := by
  simp [readFixed]

theorem readFixed_reads (n : Nat) : Reads id (readFixed n) where
  append c h := by
    obtain ⟨rfl, rfl⟩ := readFixed_cases h
    rw [List.append_assoc, readFixed_append]
  written rest h := by
    obtain ⟨rfl, -⟩ := readFixed_cases h
    exact readFixed_append _ rest
  length h := by
    obtain ⟨-, rfl⟩ := readFixed_cases h
    simp

/-- What a field holds after its tag, without groups. -/
inductive Payload where
  | varint (value : Nat)
  | fixed64 (bytes : List UInt8)
  | delimited (bytes : List UInt8)
  | fixed32 (bytes : List UInt8)
  deriving Repr, DecidableEq

/-- The bytes of a field behind its tag. -/
def Payload.write : Payload → List UInt8
  | .varint value => Wire.varint value
  | .fixed64 bytes => bytes
  | .delimited bytes => Wire.delimited bytes
  | .fixed32 bytes => bytes

/-- The payload of a field, by the wire type in the low three bits of its tag. -/
def readPayload (tag : Nat) (b : List UInt8) : Option (Payload × List UInt8) :=
  if tag % 8 = 0 then (readVarint 10 b).map (Prod.map .varint id)
  else if tag % 8 = 1 then (readFixed 8 b).map (Prod.map .fixed64 id)
  else if tag % 8 = 2 then (readDelimited b).map (Prod.map .delimited id)
  else if tag % 8 = 5 then (readFixed 4 b).map (Prod.map .fixed32 id)
  else none

/-- Reading and wrapping what was read. -/
theorem Reads.map {α β : Type u} {write : α → List UInt8}
    {read : List UInt8 → Option (α × List UInt8)} (R : Reads write read) (f : α → β)
    {write' : β → List UInt8} (hf : ∀ a, write' (f a) = write a) :
    Reads write' fun b => (read b).map (Prod.map f id) := by
  have cases {b a r} (h : (read b).map (Prod.map f id) = some (a, r)) :
      ∃ x, read b = some (x, r) ∧ f x = a := by
    obtain ⟨⟨x, r'⟩, hread, hp⟩ := Option.map_eq_some_iff.mp h
    obtain ⟨rfl, rfl⟩ := by simpa using hp
    exact ⟨x, hread, rfl⟩
  constructor
  · intro b a r c h
    obtain ⟨x, hread, rfl⟩ := cases h
    simp [R.append c hread]
  · intro b a r rest h
    obtain ⟨x, hread, rfl⟩ := cases h
    simp [hf, R.written rest hread]
  · intro b a r h
    obtain ⟨x, hread, rfl⟩ := cases h
    rw [hf]
    exact R.length hread

theorem readPayload_reads (tag : Nat) : Reads Payload.write (readPayload tag) := by
  unfold readPayload
  split
  · exact (readVarint_reads 9).map Payload.varint fun _ => rfl
  split
  · exact (readFixed_reads 8).map Payload.fixed64 fun _ => rfl
  split
  · exact readDelimited_reads.map Payload.delimited fun _ => rfl
  split
  · exact (readFixed_reads 4).map Payload.fixed32 fun _ => rfl
  exact ⟨by simp, by simp, by simp⟩

/-- The tag of at most five bytes at the front of the input. -/
def readTag (b : List UInt8) : Nat × List UInt8 :=
  match readVarint 5 b with
  | none => (0, b)
  | some (tag, r) => if 8 ≤ tag ∧ tag < 2 ^ 32 then (tag, r) else (0, b)

theorem readTag_of_readVarint {b r : List UInt8} {tag : Nat}
    (h : readVarint 5 b = some (tag, r)) (hlo : 8 ≤ tag) (hhi : tag < 2 ^ 32) :
    readTag b = (tag, r) := by
  rw [readTag, h]
  exact if_pos ⟨hlo, hhi⟩

/-- A tag is a short varint that names a field. -/
theorem readTag_cases {b : List UInt8} (h : (readTag b).1 ≠ 0) :
    readVarint 5 b = some (readTag b) ∧ 8 ≤ (readTag b).1 ∧ (readTag b).1 < 2 ^ 32 := by
  cases hread : readVarint 5 b with
  | none => simp [readTag, hread] at h
  | some p =>
      by_cases htag : 8 ≤ p.1 ∧ p.1 < 2 ^ 32
      · rw [readTag_of_readVarint hread htag.1 htag.2]
        exact ⟨rfl, htag⟩
      · rw [readTag, hread] at h
        exact absurd (congrArg Prod.fst (if_neg htag)) h

/-- A varint of at most ten bytes, cut to 32 bits. -/
def readUInt32 (b : List UInt8) : Option (UInt32 × List UInt8) :=
  (readVarint 10 b).map (Prod.map UInt32.ofNat id)

theorem readUInt32_cases {b r : List UInt8} {v : UInt32}
    (h : readUInt32 b = some (v, r)) :
    ∃ n, readVarint 10 b = some (n, r) ∧ UInt32.ofNat n = v := by
  obtain ⟨⟨n, r'⟩, hread, hp⟩ := Option.map_eq_some_iff.mp h
  obtain ⟨rfl, rfl⟩ := by simpa using hp
  exact ⟨n, hread, rfl⟩

/-- A field that is kept without being understood. -/
structure Field where
  tag : Nat
  payload : Payload
  deriving Repr, DecidableEq

/-- The bytes of a field. -/
def Field.write (f : Field) : List UInt8 := Wire.varint f.tag ++ f.payload.write

/-- The field with the given tag, which must be one that `readTag` returns. -/
def skipField (tag : Nat) (b : List UInt8) : Option (Field × List UInt8) :=
  if 8 ≤ tag ∧ tag < 2 ^ 32 then (readPayload tag b).map (Prod.map (Field.mk tag) id)
  else none

theorem skipField_cases {tag : Nat} {b r : List UInt8} {f : Field}
    (h : skipField tag b = some (f, r)) :
    f.tag = tag ∧ 8 ≤ tag ∧ tag < 2 ^ 32 ∧ readPayload tag b = some (f.payload, r) := by
  rw [skipField] at h
  split at h
  · rename_i htag
    obtain ⟨⟨p, r'⟩, hread, hp⟩ := Option.map_eq_some_iff.mp h
    obtain ⟨rfl, rfl⟩ := by simpa using hp
    exact ⟨rfl, htag.1, htag.2, hread⟩
  · simp at h

theorem skipField_of_readPayload {f : Field} {b r : List UInt8} (hlo : 8 ≤ f.tag)
    (hhi : f.tag < 2 ^ 32) (h : readPayload f.tag b = some (f.payload, r)) :
    skipField f.tag b = some (f, r) := by
  rw [skipField, if_pos ⟨hlo, hhi⟩, h]
  rfl

/-- A runtime without groups. -/
def reference : Runtime Field where
  limit := 2 ^ 31 - 1
  readTag := readTag
  readUInt32 := readUInt32
  readBytes := readDelimited
  verifyUtf8 b := (ByteArray.mk b.toArray).validateUTF8
  skipField := skipField
  writeUInt32 number v := varint (number * 8) ++ varint v.toNat
  writeBytes number s := varint (number * 8 + 2) ++ delimited s
  writeUnknown := Field.write
  uInt32Size v := (varint v.toNat).length
  bytesSize s := (delimited s).length
  unknownSize f := f.write.length
  readTag_lt {b} h := by
    have hlen : (varint (readTag b).1).length + (readTag b).2.length ≤ b.length :=
      readVarint_length (readTag_cases h).1
    have hpos := varint_length_pos (readTag b).1
    omega
  readUInt32_le h := by
    obtain ⟨n, hread, -⟩ := readUInt32_cases h
    have := readVarint_length hread
    omega
  readBytes_le h := by
    have := readDelimited_length h
    omega
  skipField_le h := by
    obtain ⟨-, -, -, hread⟩ := skipField_cases h
    have := (readPayload_reads _).length hread
    omega

/-- The runtime keeps the library's promises. -/
theorem reference_documented : reference.Documented where
  readTag_nil := rfl
  readTag_varint rest hlo hhi _ :=
    readTag_of_readVarint (readVarint_varint (by omega) rest) hlo hhi
  readTag_append c h _ := by
    obtain ⟨hread, hlo, hhi⟩ := readTag_cases h
    exact readTag_of_readVarint (readVarint_append hread c) hlo hhi
  readTag_length h := readVarint_length (readTag_cases h).1
  readUInt32_varint v rest _ := by
    have hlt : v.toNat < 128 ^ 10 := by
      have := v.toNat_lt
      omega
    simp [reference, readUInt32, readVarint_varint hlt rest]
  readUInt32_append c h _ := by
    obtain ⟨n, hread, rfl⟩ := readUInt32_cases h
    simp [reference, readUInt32, readVarint_append hread c]
  readUInt32_length h := by
    obtain ⟨n, hread, rfl⟩ := readUInt32_cases h
    have hlen := readVarint_length hread
    have hcut : (varint (UInt32.ofNat n).toNat).length ≤ (varint n).length :=
      varint_length_mono (by rw [UInt32.toNat_ofNat']; exact Nat.mod_le n _)
    omega
  readBytes_delimited s rest hlen := by
    have hlt : s.length < 128 ^ 10 := by
      simp only [delimited, reference, List.length_append] at hlen
      omega
    exact readDelimited_delimited hlt rest
  readBytes_append c h _ := readDelimited_append h c
  readBytes_length h := readDelimited_length h
  skipField_append c h _ := by
    obtain ⟨rfl, hlo, hhi, hread⟩ := skipField_cases h
    exact skipField_of_readPayload hlo hhi ((readPayload_reads _).append c hread)
  skipField_written rest h _ := by
    obtain ⟨rfl, hlo, hhi, hread⟩ := skipField_cases h
    refine ⟨_, ?_, skipField_of_readPayload hlo hhi ((readPayload_reads _).written rest hread)⟩
    rw [← readTag_of_readVarint (readVarint_varint (k := 4) (by omega) _) hlo hhi]
    simp [reference, Field.write]
  skipField_length h := by
    obtain ⟨rfl, -, -, hread⟩ := skipField_cases h
    have := (readPayload_reads _).length hread
    simp only [reference, Field.write, List.length_append]
    omega
  writeUInt32_eq _ _ := rfl
  writeBytes_eq _ _ := rfl
  uInt32Size_eq _ := rfl
  bytesSize_eq _ := rfl
  unknownSize_eq _ := rfl
  verifyUtf8_text s := by
    exact ByteArray.validateUTF8_eq_true_iff.mpr s.isValidUTF8

end Wire
