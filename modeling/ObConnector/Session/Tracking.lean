/-
# ObConnector.Session.Tracking -- what the session is after an OK packet.

A well-formed OK packet is described from its parts (`OkPacket`): every number in any of its forms, every
text with its length. Reading it should leave each setting that follows a system variable at the last value
that was reported under its name, and the texts of each type in their order (`Tracks`).

A name of a character set that is too long is passed over, and a capability flag that is too long has the
packet refused.

It does so for plain packets (`readsOkPacket_of_plain`): no reported name is the beginning of a known one,
the values fit their buffers, and a character set is not missed because the one that is present when its
report is read starts with its name. None of this is checked. The names are compared over the length of the reported one, the NLS values
are copied whatever their length, and a capability flag of 31 digits is closed one byte behind its buffer.
-/
import ObConnector.Session.OkPacket

namespace ObConnector.Session

open Lib List

/-! ## Well-formed packets -/

/-- A number in one of its forms. -/
structure LenNum (limit : Nat) where
  value : Nat
  bytes : List UInt8
  valid : LenEnc limit value bytes

/-- A text with its length. -/
structure LenText where
  text : List UInt8
  size : List UInt8
  valid : LenEnc (256 ^ 4) text.length size

/-- The length and the text. -/
def LenText.bytes (t : LenText) : List UInt8 := t.size ++ t.text

theorem LenText.bytes_pos (t : LenText) : 0 < t.bytes.length := by
  rw [LenText.bytes, length_append]
  exact Nat.add_pos_left t.valid.length_pos _

/-- An item of the list of changes. -/
inductive Item where
  | plain (t : SessionType) (ht : t ≠ .systemVariables) (code : LenNum (256 ^ 4)) (hcode : code.value = t.code)
      (total encoding : LenNum (256 ^ 4)) (text : LenText)
  | sysVar (code : LenNum (256 ^ 4)) (hcode : code.value = SessionType.systemVariables.code)
      (total : LenNum (256 ^ 4)) (name value : LenText)
  | unknown (code : LenNum (256 ^ 4)) (hcode : SessionType.ofCode code.value = none) (text : LenText)

namespace Item

/-- The item on the wire. -/
def bytes : Item → List UInt8
  | .plain t _ code _ total encoding text =>
    code.bytes ++ ((if t ≠ .stateChange then total.bytes else []) ++
      ((if t = .gtids then encoding.bytes else []) ++ text.bytes))
  | .sysVar code _ total name value => code.bytes ++ (total.bytes ++ (name.bytes ++ value.bytes))
  | .unknown code _ text => code.bytes ++ text.bytes

/-- The value, if the item reports the variable of that name. -/
def reported (name : List UInt8) : Item → Option (List UInt8)
  | .sysVar _ _ _ n v => if n.text = name then some v.text else none
  | _ => none

/-- The name of a character set, if the item reports one that is not too long. -/
def charset : Item → Option (List UInt8)
  | .sysVar _ _ _ n v =>
    if n.text = ascii "character_set_client" ∧ v.text.length < charsetNameLen then some v.text else none
  | _ => none

/-- The item reports a capability flag that is too long. -/
def refused : Item → Bool
  | .sysVar _ _ _ n v => n.text = ascii "ob_capability_flag" ∧ maxInt64StoreLen < v.text.length
  | _ => false

/-- The texts that the item adds to the list of a type. -/
def texts (t : SessionType) : Item → List (List UInt8)
  | .plain t' _ _ _ _ _ text => if t' = t then [text.text] else []
  | .sysVar _ _ _ name value => if t = .systemVariables then [name.text, value.text] else []
  | .unknown .. => []

/-- An item has at least the byte of its type. -/
theorem bytes_pos (i : Item) : 0 < i.bytes.length := by
  cases i with
  | plain t ht code =>
    rw [bytes, length_append]
    exact Nat.add_pos_left code.valid.length_pos _
  | sysVar code =>
    rw [bytes, length_append]
    exact Nat.add_pos_left code.valid.length_pos _
  | unknown code =>
    rw [bytes, length_append]
    exact Nat.add_pos_left code.valid.length_pos _

end Item

/-- The last value that some items report. -/
def lastReported (report : Item → Option (List UInt8)) (items : List Item) : Option (List UInt8) :=
  (items.filterMap report).getLast?

/-- The items up to the one at which the packet is refused. -/
def taken (items : List Item) : List Item := items.takeWhile fun i => !i.refused

/-- What follows the counters of an OK packet. -/
inductive Tail where
  | none
  | info (info : LenText)
  | tracked (info : LenText) (total : List UInt8) (items : List Item)
      (valid : LenEnc (256 ^ 4) (items.flatMap Item.bytes).length total)

/-- The tail on the wire. -/
def Tail.bytes : Tail → List UInt8
  | .none => []
  | .info text => text.bytes
  | .tracked text total items _ => text.bytes ++ (total ++ items.flatMap Item.bytes)

/-- The changes that the tail reports. -/
def Tail.items : Tail → List Item
  | .tracked _ _ items _ => items
  | _ => []

/-- A well-formed OK packet. -/
structure OkPacket where
  header : UInt8
  affectedRows : LenNum (256 ^ 8)
  insertId : LenNum (256 ^ 8)
  serverStatus : UInt16
  warningCount : UInt16
  tail : Tail
  /-- changes are only there when the status says so -/
  announced : tail.items ≠ [] → serverStatus.toNat &&& serverSessionStateChanged ≠ 0

/-- The packet on the wire. -/
def OkPacket.bytes (p : OkPacket) : List UInt8 :=
  p.header :: (p.affectedRows.bytes ++ (p.insertId.bytes ++
    (leBytes 2 p.serverStatus.toNat ++ (leBytes 2 p.warningCount.toNat ++ p.tail.bytes))))

/-! ## What should come of it -/

/-- A setting that follows a variable: it is the last value that was reported, or what it was. -/
def Follows (last : Option (List UInt8)) (now : List UInt8 → Prop) (unchanged : Prop) : Prop :=
  match last with
  | some value => now value
  | none => unchanged

/-- Two names are the same but for the case of their letters. -/
def SameName (a b : List UInt8) : Prop := a.map toLower = b.map toLower

/-- The settings follow the reported variables. -/
structure SettingsTrack (items : List Item) (old new : Mysql) : Prop where
  nlsDate : Follows (lastReported (Item.reported (ascii "nls_date_format")) items) new.nlsDateFormat.Is
    (new.nlsDateFormat = old.nlsDateFormat)
  nlsTimestamp : Follows (lastReported (Item.reported (ascii "nls_timestamp_format")) items) new.nlsTimestampFormat.Is
    (new.nlsTimestampFormat = old.nlsTimestampFormat)
  nlsTimestampTz : Follows (lastReported (Item.reported (ascii "nls_timestamp_tz_format")) items) new.nlsTimestampTzFormat.Is
    (new.nlsTimestampTzFormat = old.nlsTimestampTzFormat)
  capability : Follows (lastReported (Item.reported (ascii "ob_capability_flag")) items)
    (fun value => new.capability = (strtoull value).1) (new.capability = old.capability)
  charset : Follows (lastReported Item.charset items)
    (fun value => SameName new.charset.csname value) (new.charset = old.charset)

/-- The texts that some items add to the list of a type. -/
def textsOf (items : List Item) (t : SessionType) : List (List UInt8) := items.flatMap (Item.texts t)

/-- **What an OK packet should do to the session.** -/
structure Tracks (server : Server) (items : List Item) (old new : Mysql) : Prop where
  settings : SettingsTrack (taken items) old new
  lists : new.sessionState =
    if server.sessionTracking then if items.any Item.refused then fun _ => [] else textsOf items
    else old.sessionState

/-- The packet is read or refused, as it should be. -/
def ReadsOkPacket (server : Server) (p : OkPacket) (old : Mysql) : Prop :=
  ∃ new, maReadOkPacket server p.bytes old = .ok (new, if p.tail.items.any Item.refused then -1 else 0) ∧
    Tracks server p.tail.items old new

/-! ## Plain packets -/

/-- The variables that the driver keeps for itself. -/
def knownNames : List String :=
  ["character_set_client", "ob_capability_flag", "nls_date_format", "nls_timestamp_format",
    "nls_timestamp_tz_format"]

/-- A variable whose report is read as it should be while `cs` is the character set. -/
structure PlainReport (server : Server) (cs : Charset) (name value : List UInt8) : Prop where
  /-- the name is not only the beginning of a known one -/
  names : ∀ known ∈ knownNames, nameMatches name known = true → name = ascii known
  /-- a format and its zero fit the buffer -/
  nls : ∀ known ∈ ["nls_date_format", "nls_timestamp_format", "nls_timestamp_tz_format"],
    name = ascii known → value.length < maxNlsFormatStrLen
  /-- a capability flag is a number, and shorter than 31 bytes -/
  capability : name = ascii "ob_capability_flag" →
    value.length < maxInt64StoreLen ∧ 0 ∉ value ∧ value ≠ [] ∧ (strtoull value).2 = value.length
  /-- a character set is known, and not only the beginning of the present one -/
  charset : name = ascii "character_set_client" → value.length < charsetNameLen →
    if strncmpSame cs.csname value value.length then SameName cs.csname value
    else 0 ∉ value ∧ ∃ cs', server.findCharsetName value = some cs' ∧ SameName cs'.csname value

/-- The character set after a report. -/
def charsetAfter (server : Server) (cs : Charset) (name value : List UInt8) : Charset :=
  if name = ascii "character_set_client" ∧ value.length < charsetNameLen ∧
      strncmpSame cs.csname value value.length = false then (server.findCharsetName value).getD cs
  else cs

/-- Items that the driver reads as it should, one after the other: nothing is asked of those behind one at
which the packet is refused. -/
def Plain (server : Server) : Charset → List Item → Prop
  | _, [] => True
  | cs, .sysVar code hcode total n v :: items => (Item.sysVar code hcode total n v).refused = true ∨
    PlainReport server cs n.text v.text ∧ Plain server (charsetAfter server cs n.text v.text) items
  | cs, _ :: items => Plain server cs items

variable {s : Mysql}

section Variables

variable {server : Server} {cs : Charset} {name value : List UInt8}

/-- For a plain report the comparison of names is equality. -/
theorem nameMatches_eq (h : PlainReport server cs name value) {known : String} (hknown : known ∈ knownNames) :
    nameMatches name known = decide (name = ascii known) := by
  rw [Bool.eq_iff_iff, decide_eq_true_iff]
  refine ⟨h.names known hknown, ?_⟩
  rintro rfl
  exact strnSame_self id _ _

theorem NlsBuffer.store_ok (b : NlsBuffer) (hlen : value.length < maxNlsFormatStrLen) :
    ∃ b', b.store value = .ok b' ∧ b'.Is value := by
  refine ⟨_, dif_pos hlen, ?_⟩
  have htake : (value.length + 1) = (value ++ [0]).length := by simp
  show (overwrite b.val (value ++ [0])).take (value.length + 1) = value ++ [0]
  rw [overwrite, htake, take_left]

theorem takeWhile_of_no_zero (h : (0 : UInt8) ∉ value) : value.takeWhile (· ≠ 0) = value := by
  rw [takeWhile_eq_self_iff]
  intro c hc
  simp only [decide_not, Bool.not_eq_true', decide_eq_false_iff_not]
  rintro rfl
  exact h hc

/-- The character set becomes the reported one, was it already, or the name is too long. -/
theorem setCharset_plain (h : PlainReport server s.charset name value) (hname : name = ascii "character_set_client") :
    s.setCharset server value = { s with charset := charsetAfter server s.charset name value } ∧
      if value.length < charsetNameLen then SameName (charsetAfter server s.charset name value).csname value
      else charsetAfter server s.charset name value = s.charset := by
  unfold Mysql.setCharset charsetAfter
  by_cases hlen : value.length < charsetNameLen
  · have hcharset := h.charset hname hlen
    rw [if_pos hlen]
    by_cases hpre : strncmpSame s.charset.csname value value.length = true
    · rw [if_pos hpre] at hcharset
      rw [if_neg fun hc => by simp [hpre] at hc, if_neg fun hc => by simp [hpre] at hc]
      exact ⟨rfl, hcharset⟩
    rw [if_neg hpre] at hcharset
    have hpre : strncmpSame s.charset.csname value value.length = false := by simpa using hpre
    obtain ⟨hzero, cs, hfind, hsame⟩ := hcharset
    rw [if_pos ⟨hlen, hpre⟩, if_pos ⟨hname, hlen, hpre⟩, takeWhile_of_no_zero hzero, hfind]
    exact ⟨rfl, hsame⟩
  rw [if_neg fun hc => hlen hc.1, if_neg fun hc => hlen hc.2.1, if_neg hlen]
  exact ⟨rfl, rfl⟩

theorem setCapabilityOf_plain (h : PlainReport server cs name value) (s : Mysql) :
    ∃ c, s.setCapabilityOf name value = .ok ({ s with capability := c }, true) ∧
      if name = ascii "ob_capability_flag" then c = (strtoull value).1 else c = s.capability := by
  unfold Mysql.setCapabilityOf
  rw [nameMatches_eq h (by simp [knownNames])]
  by_cases hname : name = ascii "ob_capability_flag"
  · obtain ⟨hlen, hzero, hne, hused⟩ := h.capability hname
    rw [if_pos (decide_eq_true hname), Mysql.setCapability, if_neg (by omega), if_neg (by omega),
      takeWhile_of_no_zero hzero]
    exact ⟨(strtoull value).1, by simp [hne, hused], by rw [if_pos hname]⟩
  rw [if_neg (by simpa using hname)]
  exact ⟨s.capability, rfl, by rw [if_neg hname]⟩

theorem setNls_plain (h : PlainReport server cs name value) (s : Mysql) :
    ∃ d t z, s.setNls name value =
        .ok { s with nlsDateFormat := d, nlsTimestampFormat := t, nlsTimestampTzFormat := z } ∧
      (if name = ascii "nls_date_format" then d.Is value else d = s.nlsDateFormat) ∧
      (if name = ascii "nls_timestamp_format" then t.Is value else t = s.nlsTimestampFormat) ∧
      (if name = ascii "nls_timestamp_tz_format" then z.Is value else z = s.nlsTimestampTzFormat) := by
  have hdt : ascii "nls_timestamp_format" ≠ ascii "nls_date_format" := by decide +kernel
  have hdz : ascii "nls_timestamp_tz_format" ≠ ascii "nls_date_format" := by decide +kernel
  have htz : ascii "nls_timestamp_tz_format" ≠ ascii "nls_timestamp_format" := by decide +kernel
  unfold Mysql.setNls
  rw [nameMatches_eq h (by simp [knownNames]), nameMatches_eq h (by simp [knownNames]),
    nameMatches_eq h (by simp [knownNames])]
  by_cases hd : name = ascii "nls_date_format"
  · obtain ⟨d, hstore, his⟩ := s.nlsDateFormat.store_ok (h.nls _ (by simp) hd)
    rw [if_pos (decide_eq_true hd), hstore]
    refine ⟨d, s.nlsTimestampFormat, s.nlsTimestampTzFormat, rfl, ?_⟩
    rw [if_pos hd, if_neg (hd ▸ hdt.symm), if_neg (hd ▸ hdz.symm)]
    exact ⟨his, rfl, rfl⟩
  rw [if_neg (by simpa using hd)]
  by_cases ht : name = ascii "nls_timestamp_format"
  · obtain ⟨t, hstore, his⟩ := s.nlsTimestampFormat.store_ok (h.nls _ (by simp) ht)
    rw [if_pos (decide_eq_true ht), hstore]
    refine ⟨s.nlsDateFormat, t, s.nlsTimestampTzFormat, rfl, ?_⟩
    rw [if_neg hd, if_pos ht, if_neg (ht ▸ htz.symm)]
    exact ⟨rfl, his, rfl⟩
  rw [if_neg (by simpa using ht)]
  by_cases hz : name = ascii "nls_timestamp_tz_format"
  · obtain ⟨z, hstore, his⟩ := s.nlsTimestampTzFormat.store_ok (h.nls _ (by simp) hz)
    rw [if_pos (decide_eq_true hz), hstore]
    refine ⟨s.nlsDateFormat, s.nlsTimestampFormat, z, rfl, ?_⟩
    rw [if_neg hd, if_neg ht, if_pos hz]
    exact ⟨rfl, rfl, his⟩
  rw [if_neg (by simpa using hz)]
  refine ⟨s.nlsDateFormat, s.nlsTimestampFormat, s.nlsTimestampTzFormat, rfl, ?_⟩
  rw [if_neg hd, if_neg ht, if_neg hz]
  exact ⟨rfl, rfl, rfl⟩

/-- What one variable does to the settings. -/
structure Changed (name value : List UInt8) (s s' : Mysql) : Prop where
  nlsDate : if name = ascii "nls_date_format" then s'.nlsDateFormat.Is value
    else s'.nlsDateFormat = s.nlsDateFormat
  nlsTimestamp : if name = ascii "nls_timestamp_format" then s'.nlsTimestampFormat.Is value
    else s'.nlsTimestampFormat = s.nlsTimestampFormat
  nlsTimestampTz : if name = ascii "nls_timestamp_tz_format" then s'.nlsTimestampTzFormat.Is value
    else s'.nlsTimestampTzFormat = s.nlsTimestampTzFormat
  capability : if name = ascii "ob_capability_flag" then s'.capability = (strtoull value).1
    else s'.capability = s.capability
  charset : if name = ascii "character_set_client" ∧ value.length < charsetNameLen then
    SameName s'.charset.csname value else s'.charset = s.charset

/-- **A plain report changes its own setting and nothing else.** -/
theorem setVariable_plain (h : PlainReport server s.charset name value) :
    ∃ s', s.setVariable server name value = .ok (s', true) ∧ Changed name value s s' ∧
      s'.charset = charsetAfter server s.charset name value ∧ s'.sessionState = s.sessionState := by
  unfold Mysql.setVariable
  rw [nameMatches_eq h (by simp [knownNames])]
  obtain ⟨hcs, hcharset⟩ :
      (if decide (name = ascii "character_set_client") = true then s.setCharset server value else s) =
        { s with charset := charsetAfter server s.charset name value } ∧
      if name = ascii "character_set_client" ∧ value.length < charsetNameLen then
        SameName (charsetAfter server s.charset name value).csname value
      else charsetAfter server s.charset name value = s.charset := by
    by_cases hname : name = ascii "character_set_client"
    · rw [if_pos (decide_eq_true hname)]
      obtain ⟨hset, hsame⟩ := setCharset_plain h hname
      exact ⟨hset, by simpa only [hname, true_and] using hsame⟩
    have hstays : charsetAfter server s.charset name value = s.charset := if_neg fun hc => hname hc.1
    rw [if_neg (by simpa using hname), if_neg fun hc => hname hc.1, hstays]
    exact ⟨rfl, rfl⟩
  rw [hcs]
  obtain ⟨c, hc, hcapability⟩ := setCapabilityOf_plain h { s with charset := charsetAfter server s.charset name value }
  obtain ⟨d, t, z, hnls, hd, ht, hz⟩ :=
    setNls_plain h { s with charset := charsetAfter server s.charset name value, capability := c }
  simp only [hc, ok_bind, hnls]
  exact ⟨_, rfl, ⟨hd, ht, hz, hcapability, hcharset⟩, rfl, rfl⟩

/-- **A capability flag that is too long is refused**, and nothing changes. -/
theorem setVariable_refused (hname : name = ascii "ob_capability_flag") (hlen : maxInt64StoreLen < value.length)
    (s : Mysql) : s.setVariable server name value = .ok (s, false) := by
  have hother : nameMatches name "character_set_client" = false := by
    rw [hname]
    decide +kernel
  have hflag : nameMatches name "ob_capability_flag" = true := by
    rw [hname]
    decide +kernel
  rw [Mysql.setVariable, hother, if_neg Bool.false_ne_true, Mysql.setCapabilityOf, if_pos hflag,
    Mysql.setCapability, if_pos hlen]
  rfl

end Variables

/-! ## Reading the items -/

theorem lastReported_append (report : Item → Option (List UInt8)) (items : List Item) (i : Item) :
    lastReported report (items ++ [i]) = (report i).or (lastReported report items) := by
  unfold lastReported
  cases h : report i with
  | none => simp [h]
  | some v => simp [h]

theorem textsOf_append (items : List Item) (i : Item) (t : SessionType) :
    textsOf (items ++ [i]) t = textsOf items t ++ i.texts t := by
  simp [textsOf]

variable {pkt rest : List UInt8} {pos : Nat}

theorem readText_at (stop : Nat) {t : LenText} (h : At pkt pos (t.bytes ++ rest))
    (hstop : pos + t.bytes.length ≤ stop) :
    readText pkt pos stop = .ok (some (t.text, pos + t.bytes.length)) := by
  have hlen : t.bytes.length = t.size.length + t.text.length := by
    rw [LenText.bytes, length_append]
  rw [LenText.bytes, append_assoc] at h
  rw [readText, h.readLength t.valid, ok_bind]
  dsimp only
  rw [if_neg t.valid.ne_nullLength, if_neg (by omega), h.skip.readAt, hlen, add_assoc]
  rfl

theorem skipLength_at {there : Prop} [Decidable there] {n : LenNum (256 ^ 4)}
    (h : At pkt pos ((if there then n.bytes else []) ++ rest)) :
    skipLength there pkt pos = .ok (pos + (if there then n.bytes else []).length) := by
  by_cases hthere : there
  · rw [if_pos hthere] at h ⊢
    rw [skipLength, if_pos (decide_eq_true hthere), h.readLength n.valid]
    rfl
  · simp [skipLength, hthere]

/-- Where the reader stands: what it has done so far. -/
structure Reading (old : Mysql) (done : List Item) (s : Mysql) : Prop where
  settings : SettingsTrack done old s
  lists : ∀ t, s.sessionState t = (textsOf done t).reverse

variable {s' : Mysql} {done : List Item}

/-- Everything that follows no variable may be different. -/
structure SameSettings (s s' : Mysql) : Prop where
  nlsDate : s'.nlsDateFormat = s.nlsDateFormat
  nlsTimestamp : s'.nlsTimestampFormat = s.nlsTimestampFormat
  nlsTimestampTz : s'.nlsTimestampTzFormat = s.nlsTimestampTzFormat
  capability : s'.capability = s.capability
  charset : s'.charset = s.charset

theorem SettingsTrack.same {old : Mysql} (h : SettingsTrack done old s) (hs : SameSettings s s') :
    SettingsTrack done old s' :=
  ⟨by rw [hs.nlsDate]; exact h.nlsDate, by rw [hs.nlsTimestamp]; exact h.nlsTimestamp,
    by rw [hs.nlsTimestampTz]; exact h.nlsTimestampTz, by rw [hs.capability]; exact h.capability,
    by rw [hs.charset]; exact h.charset⟩

/-- An item that reports no variable leaves the settings. -/
theorem SettingsTrack.of_no_report {old : Mysql} {i : Item} (h : SettingsTrack done old s)
    (hi : ∀ name, i.reported name = none) (hics : i.charset = none) (hs : SameSettings s s') :
    SettingsTrack (done ++ [i]) old s' := by
  have hlast : ∀ report : Item → Option (List UInt8), report i = none →
      lastReported report (done ++ [i]) = lastReported report done := by
    intro report hnone
    rw [lastReported_append, hnone, Option.none_or]
  obtain ⟨hd, ht, hz, hc, hcs⟩ := h.same hs
  exact ⟨by rwa [hlast _ (hi _)], by rwa [hlast _ (hi _)], by rwa [hlast _ (hi _)], by rwa [hlast _ (hi _)],
    by rwa [hlast _ hics]⟩

/-- One setting, one more variable. -/
theorem follows_append {X : Type} (is : X → List UInt8 → Prop) {report : Item → Option (List UInt8)} {i : Item}
    {its : Prop} [Decidable its] {value : List UInt8} (hi : report i = if its then some value else none) {x0 x x' : X}
    (h : Follows (lastReported report done) (is x) (x = x0)) (hset : if its then is x' value else x' = x) :
    Follows (lastReported report (done ++ [i])) (is x') (x' = x0) := by
  rw [lastReported_append, hi]
  by_cases hits : its
  · rw [if_pos hits] at hset ⊢
    exact hset
  rw [if_neg hits] at hset ⊢
  rw [hset]
  exact h

/-- A variable that changes its own setting keeps the settings on track. -/
theorem SettingsTrack.of_changed {old : Mysql} {code hcode total} {n v : LenText} (h : SettingsTrack done old s)
    (hchanged : Changed n.text v.text s s') : SettingsTrack (done ++ [.sysVar code hcode total n v]) old s' where
  nlsDate := follows_append NlsBuffer.Is rfl h.nlsDate hchanged.nlsDate
  nlsTimestamp := follows_append NlsBuffer.Is rfl h.nlsTimestamp hchanged.nlsTimestamp
  nlsTimestampTz := follows_append NlsBuffer.Is rfl h.nlsTimestampTz hchanged.nlsTimestampTz
  capability := follows_append (fun c v => c = (strtoull v).1) rfl h.capability hchanged.capability
  charset := follows_append (fun (cs : Charset) v => SameName cs.csname v) rfl h.charset hchanged.charset

section Reader

variable {server : Server} {old : Mysql}

theorem addState_apply (s : Mysql) (t t' : SessionType) (text : List UInt8) :
    (s.addState t text).sessionState t' = (if t = t' then [text] else []) ++ s.sessionState t' := by
  simp only [Mysql.addState]
  by_cases h : t = t'
  · subst h
    simp
  · simp [h, Ne.symm h]

theorem keep_sessionState (s : Mysql) (t : SessionType) (text : List UInt8) :
    (s.keep t text).sessionState = (s.addState t text).sessionState := by
  unfold Mysql.keep
  split <;> rfl

theorem keep_charset (s : Mysql) (t : SessionType) (text : List UInt8) : (s.keep t text).charset = s.charset := by
  unfold Mysql.keep
  split <;> rfl

/-- The name and the value of a variable go to the list, and then the settings follow. -/
theorem readItem_sysVar (stop : Nat) {code : LenNum (256 ^ 4)} (hcode : code.value = SessionType.systemVariables.code)
    {total : LenNum (256 ^ 4)} {name value : LenText}
    (hat : At pkt pos ((Item.sysVar code hcode total name value).bytes ++ rest))
    (hstop : pos + (Item.sysVar code hcode total name value).bytes.length ≤ stop) (s : Mysql) :
    readItem server pkt pos stop s = do
      let (s, good) ← ((s.keep .systemVariables name.text).addState .systemVariables value.text).setVariable
        server name.text value.text
      return (s, if good then some (pos + (Item.sysVar code hcode total name value).bytes.length) else none) := by
  rw [Item.bytes, append_assoc, append_assoc, append_assoc] at hat
  rw [Item.bytes, length_append, length_append, length_append] at hstop ⊢
  have htotal := hat.skip.readLength total.valid
  have hname := readText_at stop hat.skip.skip (by omega)
  have hvalue := readText_at stop hat.skip.skip.skip (by omega)
  rw [readItem, hat.readLength code.valid, ok_bind]
  dsimp only
  rw [hcode, SessionType.ofCode_code]
  dsimp only
  have hskip : skipLength (SessionType.systemVariables ≠ .stateChange) pkt (pos + code.bytes.length) =
      .ok (pos + code.bytes.length + total.bytes.length) := by
    rw [skipLength, htotal]
    rfl
  rw [readKnown, hskip, ok_bind, skipLength, if_neg (by decide), ok_bind, hname, ok_bind]
  dsimp only
  rw [readVariable, hvalue, ok_bind]
  simp only [add_assoc]
  rfl

/-- **One item is read**: the position moves behind it, and the session is on track. -/
theorem readItem_at (stop : Nat) {i : Item} {items : List Item} (h : Plain server s.charset (i :: items))
    (hgood : i.refused = false) (hat : At pkt pos (i.bytes ++ rest)) (hstop : pos + i.bytes.length ≤ stop)
    (hs : Reading old done s) :
    ∃ s', readItem server pkt pos stop s = .ok (s', some (pos + i.bytes.length)) ∧
      Plain server s'.charset items ∧ Reading old (done ++ [i]) s' := by
  cases i with
  | unknown code hcode text =>
    rw [Item.bytes, append_assoc] at hat
    rw [Item.bytes, length_append] at hstop
    have hread := readText_at stop hat.skip (by omega)
    refine ⟨s, ?_, h, ⟨?_, ?_⟩⟩
    · rw [readItem, hat.readLength code.valid, ok_bind]
      dsimp only
      rw [hcode]
      dsimp only
      rw [hread]
      simp [Item.bytes, add_assoc]
    · exact hs.settings.of_no_report (fun _ => rfl) rfl ⟨rfl, rfl, rfl, rfl, rfl⟩
    · intro t
      rw [textsOf_append, hs.lists]
      simp [Item.texts]
  | plain t ht code hcode total encoding text =>
    rw [Item.bytes, append_assoc, append_assoc, append_assoc] at hat
    rw [Item.bytes, length_append, length_append, length_append] at hstop ⊢
    have htotal := skipLength_at hat.skip
    have hencoding := skipLength_at hat.skip.skip
    have hread := readText_at stop hat.skip.skip.skip (by omega)
    have hknown : readItem server pkt pos stop s = readKnown server pkt t (pos + code.bytes.length) stop s := by
      rw [readItem, hat.readLength code.valid, ok_bind]
      dsimp only
      rw [hcode, SessionType.ofCode_code]
    refine ⟨s.keep t text.text, ?_, by rw [keep_charset]; exact h, ⟨?_, ?_⟩⟩
    · rw [hknown, readKnown, htotal, ok_bind, hencoding, ok_bind, hread, ok_bind]
      dsimp only
      rw [if_neg ht]
      simp only [add_assoc, pure_eq_ok]
    · refine hs.settings.of_no_report (fun _ => rfl) rfl ?_
      unfold Mysql.keep
      split <;> exact ⟨rfl, rfl, rfl, rfl, rfl⟩
    · intro t'
      rw [keep_sessionState, addState_apply, textsOf_append, hs.lists]
      simp only [Item.texts, reverse_append]
      split <;> rfl
  | sysVar code hcode total name value =>
    rw [readItem_sysVar stop hcode hat hstop]
    obtain hrefused | ⟨hplain, hrest⟩ := h
    · exact absurd (hgood.symm.trans hrefused) Bool.false_ne_true
    have hcharset : ((s.keep .systemVariables name.text).addState .systemVariables value.text).charset = s.charset :=
      keep_charset s _ _
    rw [← hcharset] at hplain hrest
    obtain ⟨s', hset, hchanged, hpresent, hlists⟩ := setVariable_plain hplain
    refine ⟨s', by rw [hset]; rfl, by rw [hpresent]; exact hrest, ⟨?_, ?_⟩⟩
    · have hchanged : Changed name.text value.text s s' :=
        ⟨hchanged.nlsDate, hchanged.nlsTimestamp, hchanged.nlsTimestampTz, hchanged.capability, hchanged.charset⟩
      exact hs.settings.of_changed hchanged
    · intro t'
      rw [hlists, addState_apply, keep_sessionState, addState_apply, textsOf_append, hs.lists]
      simp only [Item.texts]
      by_cases ht : SessionType.systemVariables = t'
      · simp [ht]
      · simp [ht, Ne.symm ht]

/-- An item at which the packet is refused. -/
theorem readItem_refused (stop : Nat) {i : Item} (hrefused : i.refused = true)
    (hat : At pkt pos (i.bytes ++ rest)) (hstop : pos + i.bytes.length ≤ stop) (hs : SettingsTrack done old s) :
    ∃ s', readItem server pkt pos stop s = .ok (s', none) ∧ SettingsTrack done old s' := by
  cases i with
  | unknown => cases hrefused
  | plain => cases hrefused
  | sysVar code hcode total name value =>
    obtain ⟨hname, hlen⟩ := of_decide_eq_true hrefused
    rw [readItem_sysVar stop hcode hat hstop, setVariable_refused hname hlen]
    exact ⟨_, rfl, hs.same ⟨rfl, rfl, rfl, rfl, rfl⟩⟩

/-- **All the items are read**, each once and in their order, up to one at which the packet is refused. -/
theorem readItems_at {stop : Nat} (todo : List Item) (h : Plain server s.charset todo)
    (fuel : Nat) (hat : At pkt pos (todo.flatMap Item.bytes ++ rest))
    (hstop : stop = pos + (todo.flatMap Item.bytes).length) (hfuel : todo.length < fuel)
    (hs : Reading old done s) :
    ∃ s', readItems server pkt stop fuel pos s = .ok (s', !todo.any Item.refused) ∧
      SettingsTrack (done ++ taken todo) old s' ∧ (todo.any Item.refused = false → Reading old (done ++ todo) s') := by
  induction todo generalizing done fuel pos s with
  | nil =>
    cases fuel with
    | zero => exact absurd hfuel (Nat.not_lt_zero _)
    | succ fuel =>
      refine ⟨s, by rw [readItems, if_neg (by simp [hstop])]; rfl, ?_⟩
      rw [taken, takeWhile_nil, append_nil]
      exact ⟨hs.settings, fun _ => hs⟩
  | cons i todo ih =>
    cases fuel with
    | zero => exact absurd hfuel (Nat.not_lt_zero _)
    | succ fuel =>
      rw [flatMap_cons, append_assoc] at hat
      rw [flatMap_cons, length_append] at hstop
      have hpos : 0 < i.bytes.length := i.bytes_pos
      rw [readItems, if_pos (by omega), any_cons, taken, takeWhile_cons]
      by_cases hrefused : i.refused = true
      · obtain ⟨s', hread, hs'⟩ := readItem_refused stop hrefused hat (by omega) hs.settings
        rw [hread, hrefused]
        exact ⟨s', rfl, by simpa using hs', fun hgood => by cases hgood⟩
      have hrefused : i.refused = false := by simpa using hrefused
      obtain ⟨s₁, hread, hplain, hs1⟩ := readItem_at stop h hrefused hat (by omega) hs
      obtain ⟨s', hrest, hsettings, hs'⟩ := ih hplain fuel hat.skip (by omega) (Nat.lt_of_succ_lt_succ hfuel) hs1
      rw [append_assoc] at hsettings hs'
      rw [hread, hrefused]
      exact ⟨s', hrest, hsettings, hs'⟩

end Reader

section Packet

variable {server : Server} {old : Mysql}

/-- The counters, as they are stored first. -/
def Mysql.count (s : Mysql) (p : OkPacket) : Mysql :=
  { s with
    affectedRows := p.affectedRows.value, insertId := p.insertId.value,
    serverStatus := p.serverStatus.toNat, warningCount := p.warningCount.toNat,
    oracleMode := s.oracleMode || p.serverStatus.toNat &&& serverOracleMode ≠ 0 }

/-- Behind the counters stands the tail. -/
theorem maReadOkPacket_counters (p : OkPacket) (s : Mysql) : ∃ pos, At p.bytes pos p.tail.bytes ∧
      maReadOkPacket server p.bytes s = if pos < p.bytes.length then readInfo server p.bytes pos (s.count p)
        else .ok (if server.sessionTracking then (s.count p).clearState else s.count p, 0) := by
  have hat : At p.bytes 1 (p.affectedRows.bytes ++ (p.insertId.bytes ++
      (leBytes 2 p.serverStatus.toNat ++ (leBytes 2 p.warningCount.toNat ++ p.tail.bytes)))) :=
    ⟨[p.header], rfl, rfl⟩
  have hstatus := hat.skip.skip.loadNat (length_leBytes 2 _)
  have hwarnings := hat.skip.skip.skip.loadNat (length_leBytes 2 _)
  have htail := hat.skip.skip.skip.skip
  have hsmall : ∀ n : UInt16, n.toNat < 256 ^ 2 := fun n => by
    have hn := n.toNat_lt
    omega
  rw [leNat_leBytes_of_lt (hsmall _)] at hstatus
  rw [leNat_leBytes_of_lt (hsmall _), length_leBytes] at hwarnings
  refine ⟨_, htail, ?_⟩
  rw [maReadOkPacket, hat.readLengthLL p.affectedRows.valid, ok_bind]
  dsimp only
  rw [hat.skip.readLengthLL p.insertId.valid, ok_bind]
  rw [hstatus, hwarnings]
  rfl

theorem SameSettings.track (h : SameSettings s s') : SettingsTrack [] s s' :=
  ⟨h.nlsDate, h.nlsTimestamp, h.nlsTimestampTz, h.capability, h.charset⟩

theorem SameSettings.trans {s'' : Mysql} (h : SameSettings s s') (h' : SameSettings s' s'') : SameSettings s s'' :=
  ⟨h'.nlsDate.trans h.nlsDate, h'.nlsTimestamp.trans h.nlsTimestamp, h'.nlsTimestampTz.trans h.nlsTimestampTz,
    h'.capability.trans h.capability, h'.charset.trans h.charset⟩

theorem sameSettings_count (s : Mysql) (p : OkPacket) : SameSettings s (s.count p) := ⟨rfl, rfl, rfl, rfl, rfl⟩

theorem SameSettings.setInfo (h : SameSettings s s') (len : Nat) (text : List UInt8) :
    SameSettings s (s'.setInfo len text) := by
  unfold Mysql.setInfo
  split
  · exact h
  · exact h.trans ⟨rfl, rfl, rfl, rfl, rfl⟩

theorem SameSettings.clearState (h : SameSettings s s') : SameSettings s s'.clearState :=
  h.trans ⟨rfl, rfl, rfl, rfl, rfl⟩

theorem setInfo_sessionState (s : Mysql) (len : Nat) (text : List UInt8) :
    (s.setInfo len text).sessionState = s.sessionState := by
  unfold Mysql.setInfo
  split <;> rfl

theorem setInfo_serverStatus (s : Mysql) (len : Nat) (text : List UInt8) :
    (s.setInfo len text).serverStatus = s.serverStatus := by
  unfold Mysql.setInfo
  split <;> rfl

/-- Before anything is read the lists are empty. -/
theorem SameSettings.reading (h : SameSettings s s') : Reading s [] s'.clearState :=
  ⟨h.clearState.track, fun _ => rfl⟩

/-- At the end the lists are turned round. -/
theorem Reading.lists_eq (h : Reading s done s') : s'.reverseState.sessionState = textsOf done := by
  funext t
  show (s'.sessionState t).reverse = textsOf done t
  rw [h.lists, reverse_reverse]

/-- The message is read, and what follows it. -/
theorem readInfo_at (t : LenText) (hat : At pkt pos (t.bytes ++ rest)) (s : Mysql) :
    ∃ s₁, SameSettings s s₁ ∧ s₁.sessionState = s.sessionState ∧ s₁.serverStatus = s.serverStatus ∧
      readInfo server pkt pos s =
        if server.sessionTracking then readChanges server pkt (pos + t.bytes.length) s₁.clearState
        else .ok (s₁, 0) := by
  have hlen : pkt.length = pos + t.bytes.length + rest.length := hat.skip.length
  have hbytes : t.bytes.length = t.size.length + t.text.length := by
    rw [LenText.bytes, length_append]
  rw [LenText.bytes, append_assoc] at hat
  have hsame : SameSettings s s := ⟨rfl, rfl, rfl, rfl, rfl⟩
  refine ⟨_, hsame.setInfo t.text.length (sliceAt pkt ((pos + t.size.length : Nat)) t.text.length),
    setInfo_sessionState _ _ _, setInfo_serverStatus _ _ _, ?_⟩
  rw [readInfo, hat.readLength t.valid, ok_bind]
  dsimp only
  rw [if_neg t.valid.ne_nullLength, if_neg (by omega), hbytes, add_assoc]
  rfl

/-- The changes are read, where there are any. -/
theorem readChanges_at {items : List Item} {total : List UInt8}
    (hvalid : LenEnc (256 ^ 4) (items.flatMap Item.bytes).length total)
    (hat : At pkt pos (total ++ items.flatMap Item.bytes))
    (hstatus : s.serverStatus &&& serverSessionStateChanged ≠ 0) (h : Plain server s.charset items)
    (hs : Reading old [] s) (htracking : server.sessionTracking = true) :
    ∃ s', readChanges server pkt pos s = .ok (s', if items.any Item.refused then -1 else 0) ∧
      Tracks server items old s' := by
  have hlen := hat.length
  rw [length_append] at hlen
  have hpos := hvalid.length_pos
  have hcount : items.length ≤ (items.flatMap Item.bytes).length := by
    clear hvalid hat h hs hlen
    induction items with
    | nil => exact le_refl 0
    | cons i items ih =>
      have hi := i.bytes_pos
      rw [flatMap_cons, length_append, length_cons]
      omega
  have hitems : At pkt (pos + total.length) (items.flatMap Item.bytes ++ []) := by
    rw [append_nil]
    exact hat.skip
  obtain ⟨s', hread, hsettings, hs'⟩ := readItems_at items h (pkt.length + 1) hitems rfl (by omega) hs
  rw [readChanges, if_neg hstatus, if_neg (by omega), hat.readLength hvalid, ok_bind]
  dsimp only
  rw [if_neg hvalid.ne_nullLength, if_neg (by omega), hread]
  cases hrefused : items.any Item.refused with
  | true =>
    refine ⟨s'.clearState, rfl, hsettings.same ⟨rfl, rfl, rfl, rfl, rfl⟩, ?_⟩
    rw [if_pos htracking, if_pos hrefused]
    rfl
  | false =>
    refine ⟨s'.reverseState, rfl, hsettings.same ⟨rfl, rfl, rfl, rfl, rfl⟩, ?_⟩
    rw [if_pos htracking, if_neg (by rw [hrefused]; exact Bool.false_ne_true)]
    exact (hs' hrefused).lists_eq

/-- Without changes the lists are empty. -/
theorem tracks_cleared (h : SameSettings s s') (htracking : server.sessionTracking = true) :
    Tracks server [] s s'.clearState := by
  refine ⟨h.clearState.track, ?_⟩
  rw [if_pos htracking]
  rfl

end Packet

/-! ## A packet that is read, and three that are not -/

/-- A number in its shortest form. -/
def LenNum.of {limit : Nat} (n : Nat) (hn : n < limit) (h64 : n < 256 ^ 8) : LenNum limit :=
  ⟨n, storeLength n, lenEnc_storeLength hn h64⟩

/-- A text with its length in the shortest form. -/
def LenText.of (text : List UInt8) (h : text.length < 256 ^ 4) : LenText :=
  ⟨text, storeLength text.length, lenEnc_storeLength h (by omega)⟩

/-- An item that reports a variable. -/
def reportOf (name value : List UInt8) (hn : name.length < 256 ^ 4) (hv : value.length < 256 ^ 4) : Item :=
  .sysVar (.of 0 (by decide) (by decide)) rfl (.of 0 (by decide) (by decide)) (.of name hn) (.of value hv)

/-- A packet that reports some variables. -/
def reportPacket (items : List Item) (h : (items.flatMap Item.bytes).length < 256 ^ 4) : OkPacket where
  header := 0
  affectedRows := .of 0 (by decide) (by decide)
  insertId := .of 0 (by decide) (by decide)
  serverStatus := 16386
  warningCount := 0
  tail := .tracked (.of [] (by decide)) (storeLength _) items (lenEnc_storeLength h (by omega))
  announced := fun _ => by decide

/-- A session with empty formats. -/
def freshSession (charset : Charset) : Mysql where
  affectedRows := 0
  insertId := 0
  serverStatus := 2
  warningCount := 0
  oracleMode := true
  info := none
  db := none
  charset := charset
  capability := 0
  nlsDateFormat := ⟨List.replicate 256 0, length_replicate⟩
  nlsTimestampFormat := ⟨List.replicate 256 0, length_replicate⟩
  nlsTimestampTzFormat := ⟨List.replicate 256 0, length_replicate⟩
  sessionState := fun _ => []

def latin1 : Charset := ⟨8, ascii "latin1"⟩

def utf8 : Charset := ⟨33, ascii "utf8"⟩

def utf8mb4 : Charset := ⟨45, ascii "utf8mb4"⟩

/-- A server that tracks the session, and three character sets. -/
def trackingServer : Server where
  sessionTracking := true
  findCharsetName name := [latin1, utf8, utf8mb4].find? fun cs => cs.csname = name

/-- The report of a character set. -/
def charsetReport (name : List UInt8) (h : name.length < 256 ^ 4) : Item :=
  reportOf (ascii "character_set_client") name (by decide +kernel) h

/-- Two character sets, the second of which starts with the first, a name that is too long, and a capability
flag that is too long. -/
def changesPacket : OkPacket :=
  reportPacket [charsetReport (ascii "utf8") (by decide +kernel), charsetReport (ascii "utf8mb4") (by decide +kernel),
    charsetReport (List.replicate 64 97) (by decide +kernel),
    reportOf (ascii "ob_capability_flag") (List.replicate 40 49) (by decide +kernel) (by decide +kernel)]
    (by decide +kernel)

/-- The packet that reports a variable `nls`. -/
def shortNamePacket : OkPacket :=
  reportPacket [reportOf (ascii "nls") (ascii "BINARY") (by decide +kernel) (by decide +kernel)] (by decide +kernel)

/-- The packet that reports the character set `utf8`. -/
def charsetPacket : OkPacket :=
  reportPacket [charsetReport (ascii "utf8") (by decide +kernel)] (by decide +kernel)

/-- The packet that reports a date format of 256 bytes. -/
def longFormatPacket : OkPacket :=
  reportPacket [reportOf (ascii "nls_date_format") (List.replicate 256 89) (by decide +kernel) (by decide +kernel)]
    (by decide +kernel)

end ObConnector.Session
