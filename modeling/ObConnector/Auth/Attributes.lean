/-
# ObConnector.Auth.Attributes -- connection attributes.

The attributes that a client reports about itself are kept in a hash table, and next to it the number of
bytes that they take in a packet, `connect_attrs_len`. The option setters add, delete and reset. They keep
the number right and below 65536, and so it is part of what a `ConnectAttrs` is.

`maSetConnectAttrsExtend` is called while the packet is being built, and adds attributes of its own: the
address of the client, the capabilities, names and versions, and the proxy user. The ones of the driver are
added again on every call, since nothing deletes the old ones.

In which order the table gives its records back, and which of several records with one key it finds, is
left to the `HashTable`.
-/
import ObConnector.Lib.CString
import ObConnector.Lib.Decimal
import ObConnector.Lib.LenEnc

namespace ObConnector.Auth

open Lib List

/-! ## The table -/

/-- A record of the table. -/
structure Attr where
  key : CStr
  value : CStr
  deriving DecidableEq

namespace Attr

/-- What the record takes in a packet. -/
def storageLen (a : Attr) : Nat :=
  a.key.strlen + a.value.strlen + storeLengthSize a.key.strlen + storeLengthSize a.value.strlen

/-- The stores of the record, in the loop of `ma_send_connect_attr`. -/
def parts (a : Attr) : List (List UInt8) :=
  [storeLength a.key.strlen, a.key.bytes, storeLength a.value.strlen, a.value.bytes]

theorem length_parts (a : Attr) : a.parts.flatten.length = a.storageLen := by
  simp only [parts, flatten_cons, flatten_nil, length_append, length_storeLength,
    length_nil, storageLen, CStr.strlen]
  omega

end Attr

/-- What a packet needs for some records. -/
def storageOf (records : List Attr) : Nat := (records.map Attr.storageLen).sum

/-- How the hash table searches and enumerates. -/
structure HashTable where
  /-- `hash_search` -/
  search : List Attr → CStr → Option Attr
  search_mem : ∀ {records key a}, search records key = some a → a ∈ records ∧ a.key = key
  search_none : ∀ {records key}, search records key = none → ∀ a ∈ records, a.key ≠ key
  /-- the records by index -/
  elements : List Attr → List Attr
  elements_perm : ∀ records, (elements records).Perm records

/-- A table that keeps its records as they come. -/
def HashTable.inOrder : HashTable where
  search records key := records.find? fun a => a.key = key
  search_mem h := ⟨List.mem_of_find?_eq_some h, by simpa using List.find?_some h⟩
  search_none h a ha hkey := by
    have hnot := List.find?_eq_none.1 h a ha
    exact hnot (decide_eq_true hkey)
  elements records := records
  elements_perm _ := List.Perm.refl _

/-- `connect_attrs` and `connect_attrs_len`. -/
structure ConnectAttrs where
  records : List Attr
  len : Nat
  len_eq : len = storageOf records
  len_le : len ≤ 0xFFFF

namespace ConnectAttrs

/-- No attributes; also what `MYSQL_OPT_CONNECT_ATTR_RESET` leaves. -/
def empty : ConnectAttrs := ⟨[], 0, rfl, Nat.zero_le _⟩

/-- `MYSQL_OPT_CONNECT_ATTR_ADD`. Empty texts, and more than 65535 bytes, are refused. -/
def add (attrs : ConnectAttrs) (key value : CStr) : ConnectAttrs :=
  if h : key.strlen ≠ 0 ∧ value.strlen ≠ 0 ∧ (Attr.mk key value).storageLen + attrs.len ≤ 0xFFFF then
    { records := ⟨key, value⟩ :: attrs.records
      len := (Attr.mk key value).storageLen + attrs.len
      len_eq := by rw [attrs.len_eq, storageOf, storageOf, map_cons, sum_cons]
      len_le := h.2.2 }
  else attrs

theorem storageOf_erase {records : List Attr} {a : Attr} (ha : a ∈ records) :
    storageOf records = a.storageLen + storageOf (records.erase a) := by
  have hperm := (perm_cons_erase ha).map Attr.storageLen
  rw [storageOf, hperm.sum_eq, map_cons, sum_cons, storageOf]

/-- `MYSQL_OPT_CONNECT_ATTR_DELETE`. -/
def delete (table : HashTable) (attrs : ConnectAttrs) (key : CStr) : ConnectAttrs :=
  match h : table.search attrs.records key with
  | none => attrs
  | some a =>
    { records := attrs.records.erase a
      len := attrs.len - a.storageLen
      len_eq := by
        rw [attrs.len_eq, storageOf_erase (table.search_mem h).1, Nat.add_sub_cancel_left]
      len_le := le_trans (Nat.sub_le _ _) attrs.len_le }

end ConnectAttrs

/-! ## The attributes of the driver -/

/-- What the driver reports about itself. -/
structure Client where
  canUseProtocolOb20 : Bool
  canUseFullLinkTrace : Bool
  canUseFltShowTrace : Bool
  canUseLoadInfiles : Bool
  canUseObClientLobLocatorv2 : Bool
  closeAttrObclientIp : Bool
  closeAttrObclientName : Bool
  proxyUser : Option CStr
  /-- `LIBOBCLIENT_VERSION` -/
  version : CStr
  /-- what `getsockname` gives: an IPv4 address and a port -/
  localIpPort : Option ((UInt8 × UInt8 × UInt8 × UInt8) × UInt16)

/-- `OBCLIENT_CAP_GET_TYPE`. -/
def obclientCapGetType (i : UInt64) : UInt64 := (1 : UInt64) <<< i

def obclientCapObProtocolV2 : UInt64 := obclientCapGetType 8
def obclientCapFullLinkTrace : UInt64 := obclientCapGetType 14
def obclientCapProxyNewExtraInfo : UInt64 := obclientCapGetType 15
def obclientCapProxyFullLinkTraceShowTrace : UInt64 := obclientCapGetType 18
def obclientCapProxyLocalInfiles : UInt64 := obclientCapGetType 20

/-- `OBPROXY_DEFAULT_CAPABILITY_FLAG`. -/
def obproxyDefaultCapabilityFlag : UInt64 :=
  obclientCapObProtocolV2 ||| obclientCapFullLinkTrace ||| obclientCapProxyNewExtraInfo |||
    obclientCapProxyFullLinkTraceShowTrace

/-- `cap` of `ma_set_ob_connect_attrs`. -/
def Client.cap (c : Client) : UInt64 :=
  let cap := obproxyDefaultCapabilityFlag
  let cap :=
    if c.canUseProtocolOb20 then
      let cap := cap ||| obclientCapObProtocolV2 ||| obclientCapProxyNewExtraInfo
      if c.canUseFullLinkTrace then
        let cap := cap ||| obclientCapFullLinkTrace
        if c.canUseFltShowTrace then cap ||| obclientCapProxyFullLinkTraceShowTrace
        else cap &&& ~~~obclientCapProxyFullLinkTraceShowTrace
      else cap &&& ~~~obclientCapFullLinkTrace
    else
      cap &&& ~~~obclientCapObProtocolV2 &&& ~~~obclientCapFullLinkTrace &&&
        ~~~obclientCapProxyNewExtraInfo &&& ~~~obclientCapProxyFullLinkTraceShowTrace
  if c.canUseLoadInfiles then cap ||| obclientCapProxyLocalInfiles else cap

/-- `caplob` of `ma_set_ob_connect_attrs`. -/
def Client.caplob (c : Client) : UInt64 :=
  if c.canUseObClientLobLocatorv2 then obclientCapGetType 2 ||| obclientCapGetType 0 else obclientCapGetType 2

theorem zero_notMem_decimal (n : Nat) : (0 : UInt8) ∉ decimal n :=
  fun h => absurd (isDigit_of_mem_decimal h) (by decide)

/-- A number as text. -/
def decimalText (n : Nat) : CStr := ⟨decimal n, zero_notMem_decimal n⟩

/-- What `inet_ntop` gives. -/
def ipText : UInt8 × UInt8 × UInt8 × UInt8 → CStr
  | (a, b, c, d) =>
    ⟨decimal a.toNat ++ 46 :: (decimal b.toNat ++ 46 :: (decimal c.toNat ++ 46 :: decimal d.toNat)), by
      simp [zero_notMem_decimal]⟩

/-- The pairs that `ma_set_ob_connect_attrs` adds, in their order. -/
def Client.obConnectAttrs (c : Client) : List (CStr × CStr) :=
  [(.ofText "__proxy_capability_flag", decimalText c.cap.toNat),
    (.ofText "__mysql_client_type", .ofText "__ob_libobclient")] ++
  (if c.closeAttrObclientName then [] else [(.ofText "__ob_client_name", .ofText "OceanBase Connector/C")]) ++
  [(.ofText "__ob_client_version", c.version),
    (.ofText "__ob_client_attribute_capability_flag", decimalText c.caplob.toNat)] ++
  (match c.proxyUser with
    | some user => if user.strlen = 0 then [] else [(.ofText "__ob_client_proxy_user_name", user)]
    | none => [])

/-- The pairs that say where the client is. -/
def Client.ipAttrs (c : Client) : List (CStr × CStr) :=
  if c.closeAttrObclientIp then []
  else
    match c.localIpPort with
    | some (ip, port) => [(.ofText "__client_ip", ipText ip), (.ofText "__client_port", decimalText port.toNat)]
    | none => [(.ofText "__client_ip", .ofText "invalid"), (.ofText "__client_port", .ofText "invalid")]

/-- Add pair after pair. -/
def addAll (attrs : ConnectAttrs) (pairs : List (CStr × CStr)) : ConnectAttrs :=
  pairs.foldl (fun attrs pair => attrs.add pair.1 pair.2) attrs

/-- `ma_set_connect_attrs_extend`. -/
def maSetConnectAttrsExtend (table : HashTable) (c : Client) (attrs : ConnectAttrs) : ConnectAttrs :=
  let attrs := (attrs.delete table (.ofText "__client_ip")).delete table (.ofText "__client_port")
  addAll attrs (c.ipAttrs ++ c.obConnectAttrs)

/-! ## How long the attributes get -/

/-- What some bytes of attributes become when pairs of these sizes are added: a pair that would pass 65535
bytes is refused. -/
def grow (len : Nat) (sizes : List Nat) : Nat :=
  sizes.foldl (fun len size => if size + len ≤ 0xFFFF then size + len else len) len

/-- What the pairs of the driver take; a pair with an empty text is refused. -/
def Client.pairSizes (c : Client) : List Nat :=
  ((c.ipAttrs ++ c.obConnectAttrs).filter fun pair => pair.1.strlen ≠ 0 ∧ pair.2.strlen ≠ 0).map fun pair =>
    (Attr.mk pair.1 pair.2).storageLen

/-- What the record with this key takes that the table finds. -/
def foundSize (table : HashTable) (attrs : ConnectAttrs) (key : CStr) : Nat :=
  ((table.search attrs.records key).map Attr.storageLen).getD 0

/-- What the address and the port of an earlier connection take. -/
def oldAddressSize (table : HashTable) (attrs : ConnectAttrs) : Nat :=
  foundSize table attrs (.ofText "__client_ip") +
    foundSize table (attrs.delete table (.ofText "__client_ip")) (.ofText "__client_port")

theorem ConnectAttrs.len_add (attrs : ConnectAttrs) (pair : CStr × CStr) : (attrs.add pair.1 pair.2).len =
    if pair.1.strlen ≠ 0 ∧ pair.2.strlen ≠ 0 then grow attrs.len [(Attr.mk pair.1 pair.2).storageLen] else attrs.len := by
  by_cases hne : pair.1.strlen ≠ 0 ∧ pair.2.strlen ≠ 0
  · rw [if_pos hne, ConnectAttrs.add]
    by_cases hroom : (Attr.mk pair.1 pair.2).storageLen + attrs.len ≤ 0xFFFF
    · rw [dif_pos ⟨hne.1, hne.2, hroom⟩]
      exact (if_pos hroom).symm
    · rw [dif_neg fun h => hroom h.2.2]
      exact (if_neg hroom).symm
  · rw [if_neg hne, ConnectAttrs.add, dif_neg fun h => hne ⟨h.1, h.2.1⟩]

theorem len_addAll (attrs : ConnectAttrs) (pairs : List (CStr × CStr)) : (addAll attrs pairs).len =
    grow attrs.len ((pairs.filter fun pair => pair.1.strlen ≠ 0 ∧ pair.2.strlen ≠ 0).map fun pair =>
      (Attr.mk pair.1 pair.2).storageLen) := by
  induction pairs generalizing attrs with
  | nil => rfl
  | cons pair pairs ih =>
    rw [addAll, foldl_cons, ← addAll, ih, attrs.len_add]
    by_cases hne : pair.1.strlen ≠ 0 ∧ pair.2.strlen ≠ 0
    · rw [if_pos hne, filter_cons, if_pos (decide_eq_true hne)]
      rfl
    · rw [if_neg hne, filter_cons, if_neg (by simpa using hne)]

theorem ConnectAttrs.len_delete (table : HashTable) (attrs : ConnectAttrs) (key : CStr) :
    (attrs.delete table key).len = attrs.len - foundSize table attrs key := by
  unfold ConnectAttrs.delete
  split
  · rename_i h
    rw [foundSize, h]
    rfl
  · rename_i a h
    have hfound : foundSize table attrs key = a.storageLen := by
      rw [foundSize, h]
      rfl
    rw [hfound]

/-- **What the driver's own attributes make of the length.** -/
theorem len_maSetConnectAttrsExtend (table : HashTable) (c : Client) (attrs : ConnectAttrs) :
    (maSetConnectAttrsExtend table c attrs).len = grow (attrs.len - oldAddressSize table attrs) c.pairSizes := by
  rw [maSetConnectAttrsExtend, len_addAll, ConnectAttrs.len_delete, ConnectAttrs.len_delete, Nat.sub_sub,
    oldAddressSize, Client.pairSizes]

theorem grow_le (len : Nat) (sizes : List Nat) : grow len sizes ≤ len + sizes.sum := by
  induction sizes generalizing len with
  | nil => exact le_rfl
  | cons size sizes ih =>
    have hrest := ih (if size + len ≤ 0xFFFF then size + len else len)
    rw [grow, foldl_cons, ← grow, sum_cons]
    split at hrest <;> rename_i hroom
    · rw [if_pos hroom]
      omega
    · rw [if_neg hroom]
      omega

/-! ## What the packet gets -/

/-- The stores of `ma_send_connect_attr` for the attributes that are there after the driver has added its
own. -/
def maSendConnectAttr (table : HashTable) (attrs : ConnectAttrs) : List (List UInt8) :=
  storeLength attrs.len :: ((table.elements attrs.records).map Attr.parts).flatten

/-- **The number next to the table is what the packet needs.** -/
theorem length_maSendConnectAttr (table : HashTable) (attrs : ConnectAttrs) :
    (maSendConnectAttr table attrs).flatten.length = storeLengthSize attrs.len + attrs.len := by
  have hrecords : ∀ records,
      ((records.map Attr.parts).flatten).flatten.length = storageOf records := by
    intro records
    induction records with
    | nil => rfl
    | cons a records ih =>
      rw [map_cons, flatten_cons, flatten_append, length_append, Attr.length_parts, ih]
      simp [storageOf]
  have hperm : storageOf (table.elements attrs.records) = storageOf attrs.records :=
    ((table.elements_perm attrs.records).map Attr.storageLen).sum_eq
  rw [maSendConnectAttr, flatten_cons, length_append, length_storeLength, hrecords, hperm, ← attrs.len_eq]

end ObConnector.Auth
