/-
# XmsgImXsc.WebSocketKey -- the key of a WebSocket handshake

`parseSwk` splits the handshake text into lines, looks for the name of the key field anywhere
in a line, and takes what stands behind it in the first line that contains it.  It never
reads past the terminating NUL of a line.  It extracts the key of the first proper header
exactly when the first line with the name allows it (`KeyDecided`).

A C string is the list of its bytes without the terminating NUL.
-/
import XmsgImXsc.Pdu
import Mathlib.Data.List.Basic

namespace XmsgImXsc

/-! ## The source -/

/-- The bytes of a text of 7-bit characters. -/
def ascii (s : String) : Bytes := s.toList.map fun c => UInt8.ofNat c.toNat

/-- `key`, the name of the field with its colon. -/
def swkName : Bytes := ascii "Sec-WebSocket-Key:"

/-- `strstr`: the string from the first occurrence of `needle` on. -/
def strstr (needle : Bytes) : Bytes → Option Bytes
  | [] => if needle = [] then some [] else none
  | b :: s => if needle <+: b :: s then some (b :: s) else strstr needle s

/-- `for (int i = 0; i < plen; ++i)`, from the round with index `i` on; the first argument is
how many rounds are left.  The value is `none` when a character past the terminating NUL of
`p` is read, and else the key, if the loop returns. -/
def keyLoop (p : Bytes) : Nat → Nat → Option (Option Bytes)
  | 0, _ => some none
  | rounds + 1, i =>
      -- the terminating NUL is the last character that may be read
      match (p ++ [0])[swkName.length + i]? with
      | none => none
      | some c =>
          if c = 0x20 then keyLoop p rounds (i + 1)
          else some (some ((p.drop (swkName.length + i)).take (p.length - swkName.length - i)))

/-- `for (auto& it : arr)`.  The key is `none` when `parseSwk` returns false. -/
def parseLines : List Bytes → Option (Option Bytes)
  | [] => some none
  | it :: arr =>
      match strstr swkName it with
      | none => parseLines arr
      | some p =>
          -- nothing behind the name: the later lines are not looked at
          if swkName.length ≥ p.length then some none
          else
            match keyLoop p p.length 0 with
            | none => none
            | some none => parseLines arr
            | some (some swk) => some (some swk)

/-- `parseSwk(dat, swk)`; `split` is `Misc::split` at CR LF. -/
def XmsgImWebSocketChannel.parseSwk (split : Bytes → List Bytes) (dat : Bytes) :
    Option (Option Bytes) :=
  parseLines (split dat)

/-! ## Headers -/

/-- The lines between the separators CR LF, in order. -/
def linesOf : Bytes → List Bytes
  | [] => [[]]
  | 0x0D :: 0x0A :: s => [] :: linesOf s
  | b :: s =>
      match linesOf s with
      | [] => [[b]]
      | line :: lines => (b :: line) :: lines

/-- Without the leading spaces. -/
def dropSpaces (s : Bytes) : Bytes := s.dropWhile (· = 0x20)

/-- The value of a proper key header: a line that starts with the name, and has a value that is
not empty behind it and the spaces after it. -/
def headerValue (line : Bytes) : Option Bytes :=
  if swkName <+: line ∧ dropSpaces (line.drop swkName.length) ≠ [] then
    some (dropSpaces (line.drop swkName.length))
  else none

/-- The value of the first proper key header. -/
def keyValue (lines : List Bytes) : Option Bytes := lines.findSome? headerValue

/-- The first line that contains the name: the whole line, and the line from the name on. -/
def firstNamed (lines : List Bytes) : Option (Bytes × Bytes) :=
  lines.findSome? fun line => (strstr swkName line).map fun p => (line, p)

/-- The first line that contains the name, if there is one, is a proper header itself; or
nothing stands behind the name and no line is a proper header; or the name stands further
inside it, and the first proper header has the value that stands behind the name there. -/
def KeyDecided (lines : List Bytes) : Prop :=
  ∀ line p, firstNamed lines = some (line, p) →
    (headerValue line).isSome ∨ (p = swkName ∧ keyValue lines = none) ∨
      (p ≠ line ∧ keyValue lines = some (dropSpaces (p.drop swkName.length)))

/-! ## What the loops do -/

theorem swkName_length : swkName.length = 18 := by decide

theorem strstr_of_prefix {needle s : Bytes} (h : needle <+: s) : strstr needle s = some s := by
  cases s with
  | nil =>
      rw [strstr, if_pos (List.prefix_nil.mp h)]
  | cons b s => exact if_pos h

/-- What is found is a part of the string that starts with the needle. -/
theorem prefix_of_strstr {needle s p : Bytes} (h : strstr needle s = some p) : needle <+: p := by
  induction s with
  | nil =>
      rw [strstr] at h
      split at h
      · next hnil =>
        cases h
        subst hnil
        exact List.prefix_rfl
      · cases h
  | cons b s ih =>
      rw [strstr] at h
      split at h
      · next hpre =>
        cases h
        exact hpre
      · exact ih h

/-- The loop stops at the terminating NUL at the latest, and takes what follows the spaces. -/
theorem keyLoop_eq {p : Bytes} {rounds i : Nat} (hrounds : rounds + i = p.length)
    (hi : swkName.length + i ≤ p.length) :
    keyLoop p rounds i = some (some (dropSpaces (p.drop (swkName.length + i)))) := by
  have hname := swkName_length
  -- the rounds that are left reach to the NUL and beyond it
  induction rounds generalizing i with
  | zero => omega
  | succ rounds ih =>
      unfold keyLoop dropSpaces
      by_cases hend : swkName.length + i = p.length
      · have hnul : (p ++ [0])[swkName.length + i]? = some 0 := by
          rw [hend, List.getElem?_append_right (Nat.le_refl _), Nat.sub_self]
          rfl
        rw [hnul, hend, List.drop_length]
        dsimp only
        rw [if_neg (by decide), List.take_nil]
        rfl
      · have hlt : swkName.length + i < p.length := by omega
        have hchar : (p ++ [0])[swkName.length + i]? = some p[swkName.length + i] := by
          rw [List.getElem?_append_left hlt, List.getElem?_eq_getElem hlt]
        rw [hchar, List.drop_eq_getElem_cons hlt]
        dsimp only
        by_cases hspace : p[swkName.length + i] = 0x20
        · rw [if_pos hspace, List.dropWhile_cons_of_pos (by simpa using hspace),
            ih (by omega) (by omega)]
          rfl
        · rw [if_neg hspace, List.dropWhile_cons_of_neg (by simpa using hspace), List.take_of_length_le]
          rw [List.length_cons, List.length_drop]
          omega

/-- The result is decided by the first line that contains the name. -/
theorem parseLines_eq (lines : List Bytes) :
    parseLines lines = some ((firstNamed lines).bind fun named =>
      if named.2 = swkName then none else some (dropSpaces (named.2.drop swkName.length))) := by
  induction lines with
  | nil => rfl
  | cons it arr ih =>
      unfold parseLines firstNamed
      rw [List.findSome?_cons]
      cases hstr : strstr swkName it with
      | none => exact ih
      | some p =>
          -- the loop over this line always returns, so no later line is reached
          obtain ⟨t, rfl⟩ := prefix_of_strstr hstr
          have hlen : (swkName ++ t).length = swkName.length + t.length := List.length_append
          show (if swkName.length ≥ (swkName ++ t).length then some none else _) =
            some (if swkName ++ t = swkName then none else _)
          by_cases ht : t = []
          · rw [ht, List.append_nil, if_pos (Nat.le_refl _), if_pos rfl]
          · have hpos : 0 < t.length := List.length_pos_iff.mpr ht
            have hne : swkName ++ t ≠ swkName := by
              intro habs
              exact ht (List.append_right_eq_self.mp habs)
            rw [if_neg (by omega), if_neg hne, keyLoop_eq (Nat.add_zero _) (by omega)]
            rfl

/-! ## Proper headers -/

/-- The value is what follows the name and the spaces behind it, if anything does. -/
theorem headerValue_eq_some {line v : Bytes} : headerValue line = some v ↔
    swkName <+: line ∧ v ≠ [] ∧ dropSpaces (line.drop swkName.length) = v := by
  unfold headerValue
  split
  · next h =>
    constructor
    · rintro ⟨⟩
      exact ⟨h.1, h.2, rfl⟩
    · rintro ⟨-, -, rfl⟩
      rfl
  · next h =>
    constructor
    · intro habs
      cases habs
    · rintro ⟨hpre, hne, rfl⟩
      exact absurd ⟨hpre, hne⟩ h

theorem keyValue_ne_nil {lines : List Bytes} {v : Bytes} (h : keyValue lines = some v) :
    v ≠ [] := by
  obtain ⟨line, -, hline⟩ := List.exists_of_findSome?_eq_some h
  exact (headerValue_eq_some.mp hline).2.1

/-- A line without the name is no proper header, and one that starts with it is found from its
first character on. -/
theorem headerValue_of_strstr {line v : Bytes} (h : headerValue line = some v) :
    strstr swkName line = some line :=
  strstr_of_prefix (headerValue_eq_some.mp h).1

/-- The first line that names the key is the one `strstr` finds the name in. -/
theorem strstr_of_firstNamed {lines : List Bytes} {line p : Bytes}
    (h : firstNamed lines = some (line, p)) : strstr swkName line = some p := by
  obtain ⟨it, -, hit⟩ := List.exists_of_findSome?_eq_some h
  obtain ⟨q, hq, heq⟩ := Option.map_eq_some_iff.mp hit
  cases heq
  exact hq

/-- When no line contains the name, none is a proper header. -/
theorem keyValue_of_firstNamed_none {lines : List Bytes} (h : firstNamed lines = none) :
    keyValue lines = none := by
  apply List.findSome?_eq_none_iff.mpr
  intro line hline
  have hnone := List.findSome?_eq_none_iff.mp h line hline
  cases hvalue : headerValue line with
  | none => rfl
  | some v =>
      rw [headerValue_of_strstr hvalue] at hnone
      cases hnone

/-- When the first line that contains the name is a proper header, it is the first one. -/
theorem keyValue_of_firstNamed {lines : List Bytes} {line p v : Bytes}
    (h : firstNamed lines = some (line, p)) (hvalue : headerValue line = some v) :
    p = line ∧ keyValue lines = some v := by
  unfold firstNamed at h
  unfold keyValue
  induction lines with
  | nil => cases h
  | cons it arr ih =>
      rw [List.findSome?_cons] at h ⊢
      cases hstr : strstr swkName it with
      | some q =>
          rw [hstr] at h
          cases h
          rw [headerValue_of_strstr hvalue] at hstr
          cases hstr
          rw [hvalue]
          exact ⟨rfl, rfl⟩
      | none =>
          rw [hstr] at h
          -- a line without the name is skipped by both searches
          have hnot : headerValue it = none := by
            cases hit : headerValue it with
            | none => rfl
            | some w =>
                rw [headerValue_of_strstr hit] at hstr
                cases hstr
          rw [hnot]
          exact ih h

/-- The key is extracted: of the first proper header, or none when there is none. -/
def ExtractsKey (split : Bytes → List Bytes) (dat : Bytes) : Prop :=
  XmsgImWebSocketChannel.parseSwk split dat = some (keyValue (linesOf dat))

/-- `parseSwk` never reads past the end of a line. -/
theorem parseSwk_ne_none {split : Bytes → List Bytes} (hsplit : ∀ dat, split dat = linesOf dat)
    (dat : Bytes) : XmsgImWebSocketChannel.parseSwk split dat ≠ none := by
  unfold XmsgImWebSocketChannel.parseSwk
  rw [hsplit, parseLines_eq]
  exact Option.some_ne_none _

/-- `parseSwk` never reads past the end of a line.  It returns true exactly when some line is
a proper key header, with the value of the first one, if and only if the first line with the
name decides so.  The value of the first proper header is a function of that line alone, so
that under this condition no other line determines the result. -/
theorem parseSwk_extracts_iff {split : Bytes → List Bytes}
    (hsplit : ∀ dat, split dat = linesOf dat) (dat : Bytes) :
    XmsgImWebSocketChannel.parseSwk split dat ≠ none ∧
      (ExtractsKey split dat ↔ KeyDecided (linesOf dat)) := by
  refine ⟨parseSwk_ne_none hsplit dat, ?_⟩
  unfold ExtractsKey XmsgImWebSocketChannel.parseSwk
  rw [hsplit, parseLines_eq, Option.some.injEq]
  generalize linesOf dat = lines
  unfold KeyDecided
  cases hnamed : firstNamed lines with
  | none =>
      rw [keyValue_of_firstNamed_none hnamed]
      exact ⟨fun _ _ _ habs => (by cases habs), fun _ => rfl⟩
  | some named =>
      obtain ⟨line, p⟩ := named
      rw [Option.bind_some]
      -- a value that is not empty does not come of the bare name
      have hbare (v : Bytes) (hv : v ≠ []) (hp : dropSpaces (p.drop swkName.length) = v) :
          p ≠ swkName := by
        rintro rfl
        rw [List.drop_length] at hp
        exact hv hp.symm
      constructor
      · rintro heq line' p' ⟨⟩
        dsimp only at heq
        by_cases hp : p = swkName
        · rw [if_pos hp] at heq
          exact .inr (.inl ⟨hp, heq.symm⟩)
        · rw [if_neg hp] at heq
          by_cases hline : p = line
          · -- the name stands at the front, and the value is not empty
            left
            have hpre := prefix_of_strstr (strstr_of_firstNamed hnamed)
            rw [hline] at hpre heq
            rw [headerValue_eq_some.mpr ⟨hpre, keyValue_ne_nil heq.symm, rfl⟩]
            rfl
          · exact .inr (.inr ⟨hline, heq.symm⟩)
      · intro h
        dsimp only
        rcases h line p rfl with hsome | ⟨hp, hnone⟩ | ⟨-, hvalue⟩
        · obtain ⟨v, hv⟩ := Option.isSome_iff_exists.mp hsome
          obtain ⟨rfl, hfirst⟩ := keyValue_of_firstNamed hnamed hv
          obtain ⟨-, hne, heq⟩ := headerValue_eq_some.mp hv
          rw [if_neg (hbare v hne heq), hfirst, heq]
        · rw [if_pos hp, hnone]
        · rw [if_neg (hbare _ (keyValue_ne_nil hvalue) rfl), hvalue]

/-- A request with a proper key header. -/
def sampleUpgrade : Bytes :=
  ascii "GET / HTTP/1.1\r\nSec-WebSocket-Key: dGhl\r\n"

theorem parseSwk_extracts_sample : ExtractsKey linesOf sampleUpgrade ∧
    XmsgImWebSocketChannel.parseSwk linesOf sampleUpgrade = some (some (ascii "dGhl")) := by
  refine ⟨(parseSwk_extracts_iff (fun _ => rfl) sampleUpgrade).2.mpr ?_, by decide⟩
  have hnamed : firstNamed (linesOf sampleUpgrade) =
      some (ascii "Sec-WebSocket-Key: dGhl", ascii "Sec-WebSocket-Key: dGhl") := by decide
  intro line p h
  rw [hnamed] at h
  cases h
  exact .inl (by decide)

/-- A request whose URI contains the name: the key is taken from there.  And one whose key
header has only spaces for a value: the key is empty. -/
theorem parseSwk_extracts_uri :
    XmsgImWebSocketChannel.parseSwk linesOf
        (ascii "GET /?Sec-WebSocket-Key:x\r\nSec-WebSocket-Key: dGhl\r\n") =
      some (some (ascii "x")) ∧
    ¬ ExtractsKey linesOf (ascii "GET /?Sec-WebSocket-Key:x\r\nSec-WebSocket-Key: dGhl\r\n") ∧
    XmsgImWebSocketChannel.parseSwk linesOf (ascii "Sec-WebSocket-Key:  \r\n") = some (some []) ∧
    ¬ ExtractsKey linesOf (ascii "Sec-WebSocket-Key:  \r\n") := by
  unfold ExtractsKey
  refine ⟨by decide, by decide, by decide, by decide⟩

end XmsgImXsc
