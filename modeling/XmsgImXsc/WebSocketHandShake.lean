/-
# XmsgImXsc.WebSocketHandShake -- finding the end of a WebSocket handshake

Until the handshake is done `evnRecv` passes the received bytes to `checkHandShake`.  It looks
for the empty line that ends the request from the last byte backwards, in steps of four, cuts
the text off there, extracts the key and answers.  With bytes behind the request it finds the
right end only when they do not shift the steps and hold no empty line at one of them.
-/
import XmsgImXsc.WebSocketKey
import XmsgImXsc.WebSocketFrame

namespace XmsgImXsc

/-! ## The source -/

/-- What `sendHandShake` uses of `Crypto`. -/
structure Crypto where
  sha1 : Bytes → Bytes
  base64enc : Bytes → Bytes

/-- `sendHandShake`: the bytes it sends. -/
def sendHandShake (crypto : Crypto) (swk : Bytes) : Bytes :=
  ascii ("HTTP/1.1 101 Switching Protocols\r\nConnection: Upgrade\r\nUpgrade: WebSocket\r\n" ++
    "Sec-WebSocket-Accept: ") ++
  crypto.base64enc (crypto.sha1 (swk ++ ascii "258EAFA5-E914-47DA-95CA-C5AB0DC85B11")) ++
  ascii "\r\n\r\n"

/-- CR LF CR LF ends at the index `i`. -/
def EndsAt (dat : Bytes) (i : Nat) : Prop :=
  byteAt dat i = 0x0A ∧ byteAt dat (i - 1) = 0x0D ∧ byteAt dat (i - 2) = 0x0A ∧
    byteAt dat (i - 3) = 0x0D

instance (dat : Bytes) (i : Nat) : Decidable (EndsAt dat i) :=
  inferInstanceAs (Decidable (_ ∧ _ ∧ _ ∧ _))

/-- `for (int i = len - 1; i >= 4; i -= 4)`, from the round with index `i` on. -/
def findEnd (dat : Bytes) : Nat → Option Nat
  | i + 4 => if EndsAt dat (i + 4) then some (i + 4) else findEnd dat i
  | _ => none

/-- The bytes of a C string that starts at the front of a buffer. -/
def cString (dat : Bytes) : Bytes := dat.takeWhile (· ≠ 0)

/-- What `checkHandShake` leaves: the value it returns, `hs`, the buffer and what was sent. -/
structure HandShake where
  ret : Int
  hs : Bool
  dat : Bytes
  sent : Option Bytes := none
  deriving Repr, DecidableEq

/-- `checkHandShake`; `none` where a byte past the end of a line would be read. -/
def XmsgImWebSocketChannel.checkHandShake (crypto : Crypto) (split : Bytes → List Bytes)
    (hs : Bool) (dat : Bytes) : Option HandShake :=
  match findEnd dat (dat.length - 1) with
  | none => some { ret := 0, hs := hs, dat := dat }
  | some ofst =>
      let dat := dat.set (ofst - 1) 0
      match parseSwk split (cString dat) with
      | none => none
      | some none => some { ret := -1, hs := hs, dat := dat }
      | some (some swk) =>
          some { ret := ofst + 1, hs := true, dat := dat, sent := some (sendHandShake crypto swk) }

/-! ## The empty line -/

/-- CR LF CR LF. -/
def headEnd : Bytes := [0x0D, 0x0A, 0x0D, 0x0A]

/-- The four comparisons of the source are one. -/
theorem endsAt_iff {dat : Bytes} {i : Nat} (hi : 3 ≤ i) :
    EndsAt dat i ↔ (dat.drop (i - 3)).take 4 = headEnd := by
  obtain ⟨n, rfl⟩ := Nat.exists_eq_add_of_le' hi
  have hdrop (k : Nat) : byteAt dat (n + k) = byteAt (dat.drop n) k := by
    unfold byteAt
    rw [List.getD_eq_getElem?_getD, List.getD_eq_getElem?_getD, List.getElem?_drop]
  have h1 : n + 3 - 1 = n + 2 := rfl
  have h2 : n + 3 - 2 = n + 1 := rfl
  have h3 : n + 3 - 3 = n + 0 := rfl
  unfold EndsAt
  rw [h1, h2, h3, hdrop, hdrop, hdrop, hdrop, Nat.add_zero]
  generalize dat.drop n = l
  unfold headEnd byteAt
  constructor
  · rintro ⟨h0A, h0D, h0A', h0D'⟩
    match l, h0A, h0D, h0A', h0D' with
    | b0 :: b1 :: b2 :: b3 :: t, h0A, h0D, h0A', h0D' =>
        have hb3 : b3 = 0x0A := h0A
        have hb2 : b2 = 0x0D := h0D
        have hb1 : b1 = 0x0A := h0A'
        have hb0 : b0 = 0x0D := h0D'
        rw [hb0, hb1, hb2, hb3]
        rfl
  · intro h
    match l, h with
    | b0 :: b1 :: b2 :: b3 :: t, h =>
        cases h
        exact ⟨rfl, rfl, rfl, rfl⟩

/-- The search finds the last end at one of its steps. -/
theorem findEnd_eq_some_iff {dat : Bytes} {i e : Nat} :
    findEnd dat i = some e ↔ 4 ≤ e ∧ e ≤ i ∧ (i - e) % 4 = 0 ∧ EndsAt dat e ∧
      ∀ j, e < j → j ≤ i → (i - j) % 4 = 0 → ¬ EndsAt dat j := by
  -- the search goes down in steps of four from `i`, so `e` is the first hit from above
  induction i using findEnd.induct dat with
  | case1 i hend =>
      rw [findEnd, if_pos hend]
      constructor
      · rintro ⟨⟩
        refine ⟨by omega, Nat.le_refl _, by omega, hend, ?_⟩
        intro j hj hle
        omega
      · rintro ⟨-, hle, -, -, hlast⟩
        by_contra hne
        refine hlast (i + 4) ?_ (Nat.le_refl _) (by omega) hend
        have hne : i + 4 ≠ e := fun heq => hne (congrArg some heq)
        omega
  | case2 i hnot ih =>
      rw [findEnd, if_neg hnot, ih]
      constructor
      · rintro ⟨h4, hle, hmod, hend, hlast⟩
        refine ⟨h4, by omega, by omega, hend, ?_⟩
        intro j hj hji hjmod
        by_cases htop : j = i + 4
        · rw [htop]
          exact hnot
        · exact hlast j hj (by omega) (by omega)
      · rintro ⟨h4, hle, hmod, hend, hlast⟩
        have hne : e ≠ i + 4 := by
          rintro rfl
          exact hnot hend
        refine ⟨h4, by omega, by omega, hend, ?_⟩
        intro j hj hji hjmod
        exact hlast j hj (by omega) (by omega)
  | case3 i hshort =>
      have hnone : findEnd dat i = none := findEnd.eq_2 dat i hshort
      rw [hnone]
      constructor
      · intro habs
        cases habs
      · rintro ⟨h4, hle, -⟩
        exact absurd (Nat.sub_add_cancel (by omega : 4 ≤ i)).symm (hshort (i - 4))

/-! ## Upgrade requests -/

/-- An upgrade request: CR LF CR LF stands at its end and nowhere else in it, and one of its
lines is a proper key header. -/
structure IsUpgrade (head : Bytes) : Prop where
  length : 5 ≤ head.length
  ended : headEnd <:+ head
  onlyAtEnd : ∀ i, (head.drop i).take 4 = headEnd → i + 4 = head.length
  key : ∃ line ∈ linesOf head, (headerValue line).isSome

/-- The text `parseSwk` gets of a request: the second CR from the end is overwritten, and a NUL
in front of it ends the text. -/
def requestText (head : Bytes) : Bytes := cString (head.take (head.length - 2))

/-- Something stands behind the name in the first line that contains it. -/
def KeyNamed (lines : List Bytes) : Prop :=
  ∃ line p, firstNamed lines = some (line, p) ∧ p ≠ swkName

/-- The bytes behind the request do not shift the steps, have no empty line at one of them, and
the text of the request names a key. -/
structure Findable (head behind : Bytes) : Prop where
  aligned : behind.length % 4 = 0
  noEnd : ∀ k, (behind.drop (4 * k)).take 4 ≠ headEnd
  named : KeyNamed (linesOf (requestText head))

/-- The handshake is done and exactly the request is consumed. -/
def Recognises (crypto : Crypto) (split : Bytes → List Bytes) (head behind : Bytes) : Prop :=
  ∃ r, XmsgImWebSocketChannel.checkHandShake crypto split false (head ++ behind) = some r ∧
    r.hs = true ∧ r.ret = head.length

/-- A key is found exactly when a line names one. -/
theorem parseSwk_isSome_iff {split : Bytes → List Bytes} (hsplit : ∀ dat, split dat = linesOf dat)
    (dat : Bytes) : (∃ swk, XmsgImWebSocketChannel.parseSwk split dat = some (some swk)) ↔
      KeyNamed (linesOf dat) := by
  unfold XmsgImWebSocketChannel.parseSwk KeyNamed
  rw [hsplit, parseLines_eq]
  cases hnamed : firstNamed (linesOf dat) with
  | none => simp
  | some named =>
      obtain ⟨line, p⟩ := named
      by_cases hp : p = swkName <;> simp [hp]

/-- Overwriting the second CR from the end of the request cuts its text off there. -/
theorem cString_set {head : Bytes} (hlen : 2 ≤ head.length) (behind : Bytes) :
    cString ((head ++ behind).set (head.length - 2) 0) = requestText head := by
  have hcut (l r : Bytes) : cString (l ++ 0 :: r) = cString l := by
    unfold cString
    induction l with
    | nil => rfl
    | cons b l ih =>
        rw [List.cons_append, List.takeWhile_cons, List.takeWhile_cons, ih]
  have hset : (head ++ behind).set (head.length - 2) 0 =
      head.take (head.length - 2) ++ 0 :: (head ++ behind).drop (head.length - 2 + 1) := by
    rw [List.set_eq_take_append_cons_drop, if_pos (by rw [List.length_append]; omega),
      List.take_append_of_le_length (by omega)]
  rw [hset, hcut]
  rfl

/-- The search finds the end of the request exactly when the bytes behind it do not get in its
way. -/
theorem findEnd_request_iff {head : Bytes} (hlen : 5 ≤ head.length) (hended : headEnd <:+ head)
    (behind : Bytes) :
    findEnd (head ++ behind) ((head ++ behind).length - 1) = some (head.length - 1) ↔
      behind.length % 4 = 0 ∧ ∀ k, (behind.drop (4 * k)).take 4 ≠ headEnd := by
  have hbehind (k : Nat) : (head ++ behind).drop (head.length + 4 * k) = behind.drop (4 * k) := by
    rw [List.drop_append, List.drop_eq_nil_of_le (by omega), List.nil_append,
      Nat.add_sub_cancel_left]
  have hfirst : EndsAt (head ++ behind) (head.length - 1) := by
    obtain ⟨pre, rfl⟩ := hended
    rw [endsAt_iff (by omega)]
    have hpre : (pre ++ headEnd).length - 1 - 3 = pre.length := by
      rw [List.length_append]
      rfl
    rw [hpre, List.append_assoc, List.drop_left]
    rfl
  rw [findEnd_eq_some_iff, List.length_append]
  constructor
  · rintro ⟨-, -, hmod, -, hlast⟩
    refine ⟨by omega, ?_⟩
    intro k hk
    have hle : 4 * k + 4 ≤ behind.length := by
      have hfour := congrArg List.length hk
      rw [List.length_take, List.length_drop] at hfour
      have hheadEnd : headEnd.length = 4 := rfl
      omega
    refine hlast (head.length + 4 * k + 3) (by omega) (by omega) (by omega) ?_
    rw [endsAt_iff (by omega), Nat.add_sub_cancel, hbehind]
    exact hk
  · rintro ⟨hmod, hnone⟩
    refine ⟨by omega, by omega, by omega, hfirst, ?_⟩
    intro j hj hle hjmod hend
    obtain ⟨k, hk⟩ : ∃ k, j = head.length + 4 * k + 3 := ⟨(j - head.length) / 4, by omega⟩
    rw [endsAt_iff (by omega), hk, Nat.add_sub_cancel, hbehind] at hend
    exact hnone k hend

/-- Without an empty line nothing happens. -/
theorem findEnd_eq_none {dat : Bytes} (h : ¬ headEnd <:+: dat) (i : Nat) :
    findEnd dat i = none := by
  cases hend : findEnd dat i with
  | none => rfl
  | some e =>
      obtain ⟨h4, -, -, hat, -⟩ := findEnd_eq_some_iff.mp hend
      rw [endsAt_iff (by omega)] at hat
      refine absurd ?_ h
      rw [← hat]
      exact (List.take_prefix _ _).isInfix.trans (List.drop_suffix _ _).isInfix

/-- The handshake is done when an end is found and the text in front of it has a key. -/
theorem checkHandShake_done_iff (crypto : Crypto) (split : Bytes → List Bytes) (dat : Bytes)
    (n : Int) :
    (∃ r, XmsgImWebSocketChannel.checkHandShake crypto split false dat = some r ∧ r.hs = true ∧
        r.ret = n) ↔
      ∃ ofst swk, findEnd dat (dat.length - 1) = some ofst ∧
        XmsgImWebSocketChannel.parseSwk split (cString (dat.set (ofst - 1) 0)) = some (some swk) ∧
        (ofst : Int) + 1 = n := by
  unfold XmsgImWebSocketChannel.checkHandShake
  constructor
  · rintro ⟨r, hr, hhs, hret⟩
    cases hend : findEnd dat (dat.length - 1) with
    | none =>
        rw [hend] at hr
        cases hr
        cases hhs
    | some ofst =>
        rw [hend] at hr
        dsimp only at hr
        cases hkey : XmsgImWebSocketChannel.parseSwk split (cString (dat.set (ofst - 1) 0)) with
        | none =>
            rw [hkey] at hr
            cases hr
        | some key =>
            rw [hkey] at hr
            cases key with
            | none =>
                cases hr
                cases hhs
            | some swk =>
                cases hr
                exact ⟨ofst, swk, rfl, hkey, hret⟩
  · rintro ⟨ofst, swk, hend, hkey, hret⟩
    rw [hend]
    dsimp only
    rw [hkey]
    exact ⟨_, rfl, rfl, hret⟩

/-- An upgrade request with any bytes behind it is recognised, and exactly its bytes are
consumed, if and only if its end is findable behind these bytes and the first line with the
name of the key has something behind the name.  Without an empty line `checkHandShake` returns
0, and `hs` and the buffer stay as they are. -/
theorem checkHandShake_recognises_iff (crypto : Crypto) {split : Bytes → List Bytes}
    (hsplit : ∀ dat, split dat = linesOf dat) :
    (∀ head, IsUpgrade head → ∀ behind,
      (Recognises crypto split head behind ↔ Findable head behind)) ∧
      ∀ hs dat, ¬ headEnd <:+: dat →
        XmsgImWebSocketChannel.checkHandShake crypto split hs dat =
          some { ret := 0, hs := hs, dat := dat } := by
  constructor
  · intro head hupgrade behind
    have hlen := hupgrade.length
    have hfind := findEnd_request_iff hlen hupgrade.ended behind
    have htext : cString ((head ++ behind).set (head.length - 1 - 1) 0) = requestText head :=
      cString_set (by omega) behind
    have hparse := parseSwk_isSome_iff hsplit (requestText head)
    unfold Recognises
    rw [checkHandShake_done_iff]
    constructor
    · rintro ⟨ofst, swk, hend, hkey, hret⟩
      have hofst : ofst = head.length - 1 := by omega
      rw [hofst] at hend hkey
      rw [htext] at hkey
      obtain ⟨haligned, hnone⟩ := hfind.mp hend
      exact ⟨haligned, hnone, hparse.mp ⟨swk, hkey⟩⟩
    · rintro ⟨haligned, hnone, hnamed⟩
      obtain ⟨swk, hswk⟩ := hparse.mpr hnamed
      refine ⟨head.length - 1, swk, hfind.mpr ⟨haligned, hnone⟩, ?_, by omega⟩
      rw [htext]
      exact hswk
  · intro hs dat hdat
    unfold XmsgImWebSocketChannel.checkHandShake
    rw [findEnd_eq_none hdat]

/-- The two functions of the library on the key of the sample request. -/
def Crypto.sample : Crypto where
  sha1 s :=
    if s = ascii "dGhl258EAFA5-E914-47DA-95CA-C5AB0DC85B11" then
      [0x21, 0xCE, 0x31, 0x6C, 0x5E, 0x3C, 0xB8, 0x10, 0x38, 0x5B, 0x55, 0xB2, 0x3F, 0x65, 0x4E,
        0xA2, 0xB3, 0xC9, 0xFD, 0x7D]
    else []
  base64enc s := if s = [] then [] else ascii "Ic4xbF48uBA4W1WyP2VOorPJ/X0="

/-- A request with a proper key header and the empty line behind it. -/
def sampleHead : Bytes := sampleUpgrade ++ [0x0D, 0x0A]

theorem sampleHead_isUpgrade : IsUpgrade sampleHead where
  length := by decide
  ended := by decide
  onlyAtEnd := by
    intro i hi
    have hall : ∀ i < sampleHead.length, (sampleHead.drop i).take 4 = headEnd →
        i + 4 = sampleHead.length := by decide
    refine hall i ?_ hi
    by_contra hle
    rw [List.drop_eq_nil_of_le (by omega)] at hi
    cases hi
  key := by decide

/-- A frame of four bytes behind the request. -/
theorem checkHandShake_recognises_sample :
    Recognises Crypto.sample linesOf sampleHead [0x89, 0x80, 0x01, 0x02] ∧
      XmsgImWebSocketChannel.checkHandShake Crypto.sample linesOf false [0x47, 0x45] =
        some { ret := 0, hs := false, dat := [0x47, 0x45] } := by
  have hsplit : ∀ dat, linesOf dat = linesOf dat := fun _ => rfl
  obtain ⟨hrequest, hnothing⟩ := checkHandShake_recognises_iff Crypto.sample hsplit
  refine ⟨(hrequest sampleHead sampleHead_isUpgrade _).mpr ⟨rfl, ?_, ?_⟩,
    hnothing false _ (by decide)⟩
  · intro k
    cases k with
    | zero => decide
    | succ k =>
        have hle : ([0x89, 0x80, 0x01, 0x02] : Bytes).length ≤ 4 * (k + 1) := by
          show 4 ≤ 4 * (k + 1)
          omega
        rw [List.drop_eq_nil_of_le hle]
        decide
  · exact ⟨ascii "Sec-WebSocket-Key: dGhl", ascii "Sec-WebSocket-Key: dGhl", by decide, by decide⟩

/-- One byte behind the same request: its end is not found. -/
theorem checkHandShake_misses_sample :
    IsUpgrade sampleHead ∧
      XmsgImWebSocketChannel.checkHandShake Crypto.sample linesOf false (sampleHead ++ [0x89]) =
        some { ret := 0, hs := false, dat := sampleHead ++ [0x89] } ∧
      ¬ Recognises Crypto.sample linesOf sampleHead [0x89] := by
  have hmissed : XmsgImWebSocketChannel.checkHandShake Crypto.sample linesOf false
      (sampleHead ++ [0x89]) = some { ret := 0, hs := false, dat := sampleHead ++ [0x89] } := by
    decide
  refine ⟨sampleHead_isUpgrade, hmissed, ?_⟩
  rintro ⟨r, hr, hhs, -⟩
  rw [hmissed] at hr
  cases hr
  cases hhs

end XmsgImXsc
