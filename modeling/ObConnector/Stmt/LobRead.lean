/-
# ObConnector.Stmt.LobRead -- the bytes of a LOB.

A LOB locator of version 2 carries its content when that is small (in-row), or only says where it is.
`stmt_get_data_from_lobv2` (`mariadb_stmt.c`) copies the content of an in-row locator, and asks the server
for any other one, in parts of at most `DBMS_LOB_MAX_LENGTH` bytes, with `call DBMS_LOB.read(?, ?, ?, ?)`.

What a caller wants is a slice of the content: from an offset on, as many bytes as it asked for, as far as
the content and the buffer go (`lobSlice`). It gets that slice, when the call succeeds, under a condition
that differs between the two branches (`LobPlain`). The copy does not look at the offset. The loop counts
the bytes that the server has sent and not the ones that fitted into the buffer.
-/
import ObConnector.Lib.Buffer

namespace ObConnector.Stmt

open Lib List

/-! ## Locators -/

/-- `OB_LOB_LOCATOR_V2`, as far as it is used: the flags, the sizes and `data_`. -/
structure LobLocatorV2 where
  version : Nat
  hasExtern : Bool
  isInrow : Bool
  rowkeySize : Nat
  payloadOffset : Nat
  payloadSize : Nat
  data : List UInt8
  deriving DecidableEq, Repr

/-- `get_ob_lob_payload_data_len`, on a locator of version 2. The size of a content that is elsewhere is
the last field of an `ObClientLobData`. -/
def getObLobPayloadDataLen (lob : LobLocatorV2) : Int :=
  if lob.isInrow then lob.payloadSize
  else
    let exSize := leNat (lob.data.take 2)
    let offset := 2 + exSize + lob.rowkeySize + 4 + 24
    if lob.payloadOffset + lob.payloadSize > offset then
      intOf 8 false (leNat ((lob.data.drop (offset - 8)).take 8))
    else -1

/-- The locator is one of this content. -/
structure Describes (lob : LobLocatorV2) (content : List UInt8) : Prop where
  version : lob.version = 2
  hasExtern : lob.hasExtern = true
  size : getObLobPayloadDataLen lob = content.length
  payload : lob.isInrow = true → (lob.data.drop lob.payloadOffset).take lob.payloadSize = content

/-! ## Reading from the server -/

/-- The types of a LOB. -/
inductive LobType where
  | oraClob
  | oraBlob
  | other
  deriving DecidableEq, Repr

/-- What `DBMS_LOB.read` returns: the amount that it has read, and the data. -/
structure LobReply where
  length : Nat
  data : List UInt8
  deriving DecidableEq, Repr

/-- `DBMS_LOB.read` at an offset, of an amount; or a failure. -/
abbrev LobServer := Nat → Nat → Option LobReply

/-- The server reads from this content. -/
def Serves (server : LobServer) (content : List UInt8) : Prop :=
  ∀ off amount reply, server off amount = some reply →
    reply.data = (content.drop (off - 1)).take amount ∧ reply.length = reply.data.length

/-- `convert_froma_string` into a text of `room` bytes that starts at `pos`: the data are cut, and get a
zero behind them when there is room for it. -/
def convertFromString (buf : List UInt8) (pos room : Nat) (data : List UInt8) : Except Fault (List UInt8) := do
  let buf ← writeAt buf pos (data.take room)
  if data.length < room then writeAt buf (pos + data.length) [0] else pure buf

/-- `DBMS_LOB_MAX_LENGTH`. -/
def dbmsLobMaxLength : Nat := 32766

/-- The variables of the loop of `stmt_get_data_from_lobv2`. -/
structure LobLoop where
  byteOffset : Nat
  amtp : Nat
  bufUse : Nat
  dataLen : Nat
  buf : List UInt8
  deriving DecidableEq, Repr

/-- The variables after an answer. The lengths are those of the answer, also when it was cut. -/
def LobLoop.advance (s : LobLoop) (type : LobType) (reply : LobReply) (buf : List UInt8) : LobLoop where
  byteOffset := s.byteOffset + if type = .oraClob then reply.length else reply.data.length
  amtp := s.amtp + reply.length
  bufUse := s.bufUse + reply.data.length
  dataLen := s.dataLen + reply.data.length
  buf := buf

/-- The loop of `stmt_get_data_from_lobv2`, with `ret`. A round that is the last one because its answer is
short leaves `ret` at its first value. -/
def lobReadLoop (server : LobServer) (type : LobType) (byteLen bufLen : Nat) (actLen : Int) :
    Nat → LobLoop → Except Fault (Int × LobLoop)
  | 0, _ => .error .outOfFuel
  | fuel + 1, s =>
    if byteLen ≤ s.amtp then .ok (0, s)
    else
      match server s.byteOffset (min (byteLen - s.amtp) dbmsLobMaxLength) with
      | none => .ok (-1, s)
      | some reply => do
        let buf ← convertFromString s.buf s.bufUse (bufLen - s.bufUse) reply.data
        let s' := s.advance type reply buf
        if bufLen ≤ s'.bufUse ∨ actLen ≤ s'.bufUse then .ok (0, s')
        else if dbmsLobMaxLength ≤ reply.data.length then
          lobReadLoop server type byteLen bufLen actLen fuel s'
        else .ok (-1, s')

/-- What a call gives. -/
structure LobResult where
  ret : Int
  buf : List UInt8
  dataLen : Nat
  deriving DecidableEq, Repr

/-- `stmt_get_data_from_lobv2` with a buffer of the size it is said to have. -/
def stmtGetDataFromLobv2 (server : LobServer) (lob : LobLocatorV2) (type : LobType) (byteOffset byteLen : Nat)
    (buf : List UInt8) (dataLen : Nat) : Except Fault LobResult :=
  if lob.version ≠ 2 ∨ type = .other ∨ lob.hasExtern = false then .ok ⟨1, buf, dataLen⟩
  else if lob.isInrow then do
    let length := min (min byteLen buf.length) lob.payloadSize
    let bytes ← readAt lob.data lob.payloadOffset length
    let buf ← writeAt buf 0 bytes
    return ⟨0, buf, length⟩
  else do
    let (ret, s) ← lobReadLoop server type byteLen buf.length (getObLobPayloadDataLen lob) (byteLen + 1)
      ⟨byteOffset, 0, 0, dataLen, buf⟩
    return ⟨ret, s.buf, s.dataLen⟩

/-! ## The slice -/

/-- The slice of the content that fits into a buffer of `size` bytes. -/
def lobSlice (content : List UInt8) (byteOffset byteLen size : Nat) : List UInt8 :=
  ((content.drop (byteOffset - 1)).take byteLen).take size

/-- When the branch that the locator takes gives the slice: from an in-row locator only the beginning of
the content is copied; from the server, no answer may be cut, so all that is wanted fits into the buffer,
or the buffer is filled by whole parts. -/
def LobPlain (lob : LobLocatorV2) (content : List UInt8) (byteOffset byteLen size : Nat) : Prop :=
  if lob.isInrow then byteOffset = 1
  else min byteLen (content.length - (byteOffset - 1)) ≤ size ∨ 0 < size ∧ dbmsLobMaxLength ∣ size

instance (lob : LobLocatorV2) (content : List UInt8) (byteOffset byteLen size : Nat) :
    Decidable (LobPlain lob content byteOffset byteLen size) := by
  unfold LobPlain
  infer_instance

/-- The bytes of the slice are in the buffer, and counted. -/
structure Delivers (r : LobResult) (slice : List UInt8) (size : Nat) : Prop where
  bytes : r.buf.take slice.length = slice
  dataLen : r.dataLen = slice.length
  fits : r.dataLen ≤ size

/-- An answer that fits lengthens what is in the buffer. -/
theorem convertFromString_fits (done rest : List UInt8) {data : List UInt8} (h : data.length ≤ rest.length) :
    ∃ rest', convertFromString (done ++ rest) done.length rest.length data = .ok ((done ++ data) ++ rest') ∧
      rest'.length + data.length = rest.length := by
  rw [convertFromString, take_of_length_le h, writeAt_append done data h, ok_bind]
  split
  · have hroom : [0].length ≤ (rest.drop data.length).length := by
      rw [length_drop, length_singleton]
      omega
    refine ⟨[0] ++ (rest.drop data.length).drop 1, ?_, ?_⟩
    · rw [← length_append, writeAt_append (done ++ data) [0] hroom, append_assoc]
      rfl
    · simp only [length_append, length_drop, length_singleton]
      omega
  · exact ⟨rest.drop data.length, rfl, by rw [length_drop]; omega⟩

section Loop

variable {server : LobServer} {content wanted : List UInt8} {byteOffset byteLen size : Nat}

/-- The loop has put the first `k` bytes of what is wanted into the buffer, in whole parts. -/
structure Filled (wanted : List UInt8) (byteOffset size k : Nat) (s : LobLoop) : Prop where
  byteOffset : s.byteOffset = byteOffset + k
  amtp : s.amtp = k
  bufUse : s.bufUse = k
  dataLen : s.dataLen = k
  buf : ∃ rest, s.buf = wanted.take k ++ rest
  bufSize : s.buf.length = size
  le_wanted : k ≤ wanted.length
  le_size : k ≤ size

/-- What the loop has filled is the slice, when nothing more of it is to come. -/
theorem Filled.delivers {k : Nat} {s : LobLoop} (h : Filled wanted byteOffset size k s) (ret : Int)
    (hlast : wanted.length ≤ k ∨ size ≤ k) : Delivers ⟨ret, s.buf, s.dataLen⟩ (wanted.take size) size := by
  obtain ⟨rest, hbuf⟩ := h.buf
  have hlen : (wanted.take size).length = k := by
    have := h.le_wanted
    have := h.le_size
    rw [length_take]
    omega
  have htake : wanted.take size = wanted.take k := by
    rcases hlast with hlast | hlast
    · rw [take_of_length_le hlast, take_of_length_le (le_trans hlast h.le_size)]
    · rw [le_antisymm hlast h.le_size]
  refine ⟨?_, h.dataLen.trans hlen.symm, h.dataLen ▸ h.le_size⟩
  rw [hlen, hbuf, htake, take_append_of_le_length, take_of_length_le]
  · exact length_take_le k wanted
  · rw [length_take]
    exact Nat.le_min.2 ⟨le_refl k, h.le_wanted⟩

/-- An answer that fits is one more part. -/
theorem Filled.advance {k : Nat} {s : LobLoop} {reply : LobReply} {part : Nat}
    (h : Filled wanted byteOffset size k s) (hdata : reply.data = (wanted.drop k).take part)
    (hlength : reply.length = reply.data.length) (hfits : k + reply.data.length ≤ size) :
    ∃ buf, convertFromString s.buf s.bufUse (size - s.bufUse) reply.data = .ok buf ∧
      Filled wanted byteOffset size (k + reply.data.length) (s.advance .oraBlob reply buf) := by
  obtain ⟨rest, hbuf⟩ := h.buf
  have hk : (wanted.take k).length = k := by
    rw [length_take]
    exact min_eq_left h.le_wanted
  have hrest : rest.length = size - k := by
    have hsize := h.bufSize
    rw [hbuf, length_append] at hsize
    omega
  obtain ⟨rest', hrun, hrest'⟩ :=
    convertFromString_fits (wanted.take k) rest (show reply.data.length ≤ rest.length by omega)
  rw [hk, hrest, ← hbuf] at hrun
  rw [h.bufUse]
  have htake : wanted.take k ++ reply.data = wanted.take (k + reply.data.length) := by
    rw [take_add, hdata, length_take, ← take_eq_take_min]
  have hwanted : k + reply.data.length ≤ wanted.length := by
    have := h.le_wanted
    rw [hdata, length_take, length_drop]
    omega
  refine ⟨_, hrun, ?_, ?_, ?_, ?_, ⟨rest', by rw [htake]; rfl⟩, ?_, hwanted, hfits⟩
  · show s.byteOffset + reply.data.length = _
    rw [h.byteOffset, add_assoc]
  · show s.amtp + reply.length = _
    rw [h.amtp, hlength]
  · show s.bufUse + reply.data.length = _
    rw [h.bufUse]
  · show s.dataLen + reply.data.length = _
    rw [h.dataLen]
  · show (wanted.take k ++ reply.data ++ rest').length = size
    rw [length_append, length_append]
    omega

/-- **The loop ends**, and when it reports success the slice is there. -/
theorem lobReadLoop_delivers (hserver : Serves server content)
    (hwanted : wanted = (content.drop (byteOffset - 1)).take byteLen) (hoffset : 1 ≤ byteOffset)
    (hplain : wanted.length ≤ size ∨ 0 < size ∧ dbmsLobMaxLength ∣ size) :
    ∀ fuel k s, Filled wanted byteOffset size k s → dbmsLobMaxLength ∣ k → k = 0 ∨ k < size → byteLen < k + fuel →
      ∃ r, lobReadLoop server .oraBlob byteLen size content.length fuel s = .ok r ∧
        (r.1 = 0 → Delivers ⟨r.1, r.2.buf, r.2.dataLen⟩ (wanted.take size) size) := by
  intro fuel
  have hle : wanted.length ≤ byteLen ∧ wanted.length ≤ content.length := by
    rw [hwanted, length_take, length_drop]
    omega
  induction fuel with
  | zero =>
    intro k s hs _ _ hfuel
    have := hs.le_wanted
    omega
  | succ fuel ih =>
    intro k s hs hparts hroom hfuel
    rw [lobReadLoop]
    by_cases hdone : byteLen ≤ s.amtp
    · rw [if_pos hdone]
      rw [hs.amtp] at hdone
      exact ⟨_, rfl, fun _ => hs.delivers 0 (.inl (le_trans hle.1 hdone))⟩
    rw [if_neg hdone]
    rw [hs.amtp] at ⊢
    cases hreply : server s.byteOffset (min (byteLen - k) dbmsLobMaxLength) with
    | none => exact ⟨_, rfl, fun h => absurd h (show (-1) ≠ 0 by decide)⟩
    | some reply =>
      obtain ⟨hdata, hlength⟩ := hserver _ _ _ hreply
      -- the part of the content that was asked for is a part of what is wanted
      have hpart : reply.data = (wanted.drop k).take (min (byteLen - k) dbmsLobMaxLength) := by
        have hstart : byteOffset + k - 1 = byteOffset - 1 + k := by omega
        rw [hdata, hs.byteOffset, hwanted, drop_take, drop_drop, take_take, hstart, min_eq_left (min_le_left _ _)]
      have hmax : reply.data.length ≤ dbmsLobMaxLength := by
        rw [hpart, length_take]
        omega
      have hfits : k + reply.data.length ≤ size := by
        rcases hplain with hall | ⟨hpos, hwhole⟩
        · have : reply.data.length ≤ wanted.length - k := by
            rw [hpart, length_take, length_drop]
            omega
          omega
        have hlt : k < size := by omega
        obtain ⟨a, rfl⟩ := hparts
        obtain ⟨b, rfl⟩ := hwhole
        have hab : a + 1 ≤ b := Nat.lt_of_mul_lt_mul_left hlt
        calc dbmsLobMaxLength * a + reply.data.length ≤ dbmsLobMaxLength * (a + 1) := by
              rw [Nat.mul_succ]
              omega
          _ ≤ dbmsLobMaxLength * b := Nat.mul_le_mul_left _ hab
      obtain ⟨buf, hrun, hnext⟩ := hs.advance hpart hlength hfits
      simp only [hrun, ok_bind]
      split
      · rename_i hstop
        refine ⟨_, rfl, fun _ => hnext.delivers 0 ?_⟩
        rw [hnext.bufUse] at hstop
        omega
      rename_i hgo
      rw [hnext.bufUse] at hgo
      split
      · rename_i hfull
        have hfull : reply.data.length = dbmsLobMaxLength := le_antisymm hmax hfull
        have hpos : 0 < dbmsLobMaxLength := by decide
        apply ih _ _ hnext
        · rw [hfull]
          exact Nat.dvd_add hparts (Nat.dvd_refl _)
        · omega
        · omega
      · exact ⟨_, rfl, fun h => absurd h (show (-1) ≠ 0 by decide)⟩

end Loop

/-! ## In-row or not -/

section Reading

variable {server : LobServer} {lob : LobLocatorV2} {content : List UInt8} {byteOffset byteLen : Nat}
  {buf : List UInt8}

/-- The copy of an in-row content starts at its first byte. -/
theorem inrow_delivers (server : LobServer) (buf : List UInt8) (byteLen : Nat) (hlob : Describes lob content)
    (hinrow : lob.isInrow = true) (hcontent : 0 < content.length) :
    ∃ r, stmtGetDataFromLobv2 server lob .oraBlob 1 byteLen buf 0 = .ok r ∧
      Delivers r (lobSlice content 1 byteLen buf.length) buf.length := by
  have hsize : lob.payloadSize = content.length := by
    have h := hlob.size
    rw [getObLobPayloadDataLen, if_pos hinrow] at h
    exact_mod_cast h
  have hpayload := hlob.payload hinrow
  have hinside : lob.payloadOffset + content.length ≤ lob.data.length := by
    have h := congrArg List.length hpayload
    rw [length_take, length_drop] at h
    omega
  have hread : readAt lob.data lob.payloadOffset (min (min byteLen buf.length) lob.payloadSize) =
      .ok (lobSlice content 1 byteLen buf.length) := by
    rw [readAt_inside (by omega) (by omega)]
    have hslice : lobSlice content 1 byteLen buf.length =
        content.take (min (min byteLen buf.length) lob.payloadSize) := by
      rw [lobSlice, take_take, min_comm buf.length, hsize]
      exact take_eq_take_min
    rw [hslice, ← hpayload, take_take, sliceAt]
    congr 2
    omega
  have hlen : (lobSlice content 1 byteLen buf.length).length =
      min (min byteLen buf.length) lob.payloadSize := by
    rw [lobSlice, length_take, length_take, length_drop]
    omega
  refine ⟨⟨0, lobSlice content 1 byteLen buf.length ++ buf.drop (lobSlice content 1 byteLen buf.length).length,
    min (min byteLen buf.length) lob.payloadSize⟩, ?_, ?_⟩
  · have hguard : ¬(lob.version ≠ 2 ∨ LobType.oraBlob = .other ∨ lob.hasExtern = false) := by
      simp [hlob.version, hlob.hasExtern]
    simp only [stmtGetDataFromLobv2, if_neg hguard, if_pos hinrow, hread, ok_bind]
    have hfits : (lobSlice content 1 byteLen buf.length).length ≤ buf.length := by omega
    have hwrite := writeAt_append [] _ hfits
    rw [nil_append, length_nil] at hwrite
    rw [hwrite]
    rfl
  · refine ⟨take_left, hlen.symm, ?_⟩
    show min (min byteLen buf.length) lob.payloadSize ≤ buf.length
    omega

/-- **A successful read gives the slice**, from an in-row locator as from any other one. -/
theorem lob_read_slice (hlob : Describes lob content) (hserver : Serves server content)
    (hoffset : 1 ≤ byteOffset ∧ byteOffset ≤ content.length)
    (hplain : LobPlain lob content byteOffset byteLen buf.length) :
    ∃ r, stmtGetDataFromLobv2 server lob .oraBlob byteOffset byteLen buf 0 = .ok r ∧
      (r.ret = 0 → Delivers r (lobSlice content byteOffset byteLen buf.length) buf.length) := by
  by_cases hinrow : lob.isInrow = true
  · rw [LobPlain, if_pos hinrow] at hplain
    subst hplain
    obtain ⟨r, hrun, hr⟩ := inrow_delivers server buf byteLen hlob hinrow hoffset.2
    exact ⟨r, hrun, fun _ => hr⟩
  rw [LobPlain, if_neg hinrow] at hplain
  have hwanted : ((content.drop (byteOffset - 1)).take byteLen).length =
      min byteLen (content.length - (byteOffset - 1)) := by
    rw [length_take, length_drop]
  rw [← hwanted] at hplain
  have hstart : Filled ((content.drop (byteOffset - 1)).take byteLen) byteOffset buf.length 0
      ⟨byteOffset, 0, 0, 0, buf⟩ :=
    ⟨rfl, rfl, rfl, rfl, ⟨buf, rfl⟩, rfl, Nat.zero_le _, Nat.zero_le _⟩
  obtain ⟨⟨ret, s⟩, hrun, hr⟩ := lobReadLoop_delivers hserver rfl hoffset.1 hplain (byteLen + 1) 0 _ hstart
    (Nat.dvd_zero _) (.inl rfl) (by omega)
  have hguard : ¬(lob.version ≠ 2 ∨ LobType.oraBlob = .other ∨ lob.hasExtern = false) := by
    simp [hlob.version, hlob.hasExtern]
  refine ⟨⟨ret, s.buf, s.dataLen⟩, ?_, hr⟩
  rw [stmtGetDataFromLobv2, if_neg hguard, if_neg hinrow, hlob.size, hrun]
  rfl

end Reading

/-- A locator that carries its content. -/
def inrowLob (content : List UInt8) : LobLocatorV2 := ⟨2, true, true, 0, 0, content.length, content⟩

/-- A locator that says where its content of `size` bytes is: no transaction part, no row key, and a byte
behind the `ObClientLobData`. -/
def outrowLob (size : Nat) : LobLocatorV2 :=
  ⟨2, true, false, 0, 0, 31, leBytes 2 0 ++ List.replicate 20 0 ++ leBytes 8 size ++ [0]⟩

/-- A server with this content, which fails behind its end. -/
def contentServer (content : List UInt8) : LobServer := fun off amount =>
  if content.length < off then none
  else some ⟨((content.drop (off - 1)).take amount).length, (content.drop (off - 1)).take amount⟩

theorem serves_contentServer (content : List UInt8) : Serves (contentServer content) content := by
  intro off amount reply h
  rw [contentServer] at h
  split at h
  · cases h
  cases h
  exact ⟨rfl, rfl⟩

theorem small_lob_delivered : Describes (outrowLob 3) [7, 8, 9] ∧ Serves (contentServer [7, 8, 9]) [7, 8, 9] ∧
      LobPlain (outrowLob 3) [7, 8, 9] 1 5 4 ∧
      ∃ r, stmtGetDataFromLobv2 (contentServer [7, 8, 9]) (outrowLob 3) .oraBlob 1 5 [0, 0, 0, 0] 0 = .ok r ∧
        (r.ret = 0 → Delivers r (lobSlice [7, 8, 9] 1 5 4) 4) := by
  have hlob : Describes (outrowLob 3) [7, 8, 9] := ⟨rfl, rfl, by decide, fun h => nomatch h⟩
  have hplain : LobPlain (outrowLob 3) [7, 8, 9] 1 5 ([0, 0, 0, 0]).length := by decide
  exact ⟨hlob, serves_contentServer _, hplain, lob_read_slice hlob (serves_contentServer _) (by decide) hplain⟩

/-- From its second byte on, an in-row content is read from its first byte; and three bytes are counted
where two have fitted. -/
theorem lob_read_depends_on_storage : Describes (inrowLob [7, 8, 9]) [7, 8, 9] ∧ Describes (outrowLob 3) [7, 8, 9] ∧
      stmtGetDataFromLobv2 (contentServer [7, 8, 9]) (inrowLob [7, 8, 9]) .oraBlob 2 2 [0, 0] 0 =
        .ok ⟨0, [7, 8], 2⟩ ∧
      stmtGetDataFromLobv2 (contentServer [7, 8, 9]) (outrowLob 3) .oraBlob 2 2 [0, 0] 0 = .ok ⟨0, [8, 9], 2⟩ ∧
      stmtGetDataFromLobv2 (contentServer [7, 8, 9]) (outrowLob 3) .oraBlob 1 3 [0, 0] 0 = .ok ⟨0, [7, 8], 3⟩ := by
  refine ⟨⟨rfl, rfl, by decide, fun _ => rfl⟩, ⟨rfl, rfl, by decide, fun h => nomatch h⟩, ?_, ?_, ?_⟩ <;>
    decide +kernel

end ObConnector.Stmt
