/-
# ObConnector.Auth.AttributeRuns -- the option calls behind the connection attributes.

`ConnectAttrs` of `Auth.Attributes` carries the fact that `connect_attrs_len` is the number of bytes its
records take. Here are the option calls as `mysql_optionsv` runs them, on a state that carries nothing:
`MYSQL_OPT_CONNECT_ATTR_ADD` with all the ways in which it fails, `MYSQL_OPT_CONNECT_ATTR_DELETE` with the
two subtractions it makes before the record is gone, and `MYSQL_OPT_CONNECT_ATTR_RESET`.

A call keeps the accounts (`accounted_step`), and so does every sequence of calls (`accounted_run`). What
`ma_send_connect_attr` writes in front of the attributes is then how many bytes they have, also after the
calls it makes itself (`attrs_accounted`).
-/
import ObConnector.Auth.Attributes
import ObConnector.Net.FieldLength

namespace ObConnector.Auth

open Lib Net List

/-! ## the calls -/

/-- `connect_attrs` and `connect_attrs_len`, and whether the table has been set up. -/
structure AttrState where
  inited : Bool
  records : List Attr
  len : Nat
  deriving DecidableEq

/-- No attributes. -/
def AttrState.none : AttrState := ⟨false, [], 0⟩

/-- Whether there is memory for the table, for a record and for its place in the table. -/
structure Memory where
  init : Bool
  record : Bool
  insert : Bool

/-- The option calls; a missing text is a null pointer. -/
inductive AttrCall where
  | add (key value : Option CStr) (memory : Memory)
  | delete (key : Option CStr)
  | reset

/-- `MYSQL_OPT_CONNECT_ATTR_ADD` behind its first check. -/
def attrAdd (key value : CStr) (memory : Memory) (s : AttrState) : Except Fault (Bool × AttrState) := do
  let keyStore ← getStoreLength key.strlen
  let valueStore ← getStoreLength value.strlen
  let storageLen := key.strlen + value.strlen + keyStore + valueStore
  if 0xFFFF < storageLen + s.len then return (false, s)
  if !s.inited && !memory.init then return (false, s)
  let s := { s with inited := true }
  if !memory.record || !memory.insert then return (false, s)
  return (true, { s with records := ⟨key, value⟩ :: s.records, len := s.len + storageLen })

/-- A subtraction of `size_t`. -/
def subSize (a b : Nat) : Nat := (a + (2 ^ 64 - b % 2 ^ 64)) % 2 ^ 64

/-- `MYSQL_OPT_CONNECT_ATTR_DELETE` of a record that was found. -/
def attrDelete (a : Attr) (s : AttrState) : Except Fault (Bool × AttrState) := do
  let keyStore ← getStoreLength a.key.strlen
  let len := subSize s.len (a.key.strlen + keyStore)
  let valueStore ← getStoreLength a.value.strlen
  let len := subSize len (a.value.strlen + valueStore)
  return (true, { s with records := s.records.erase a, len := len })

/-- `mysql_optionsv` for the three options, and whether it succeeds. -/
def mysqlOptionsv (table : HashTable) (call : AttrCall) (s : AttrState) : Except Fault (Bool × AttrState) :=
  match call with
  | .add key value memory =>
    match key, value with
    | some key, some value =>
      if key.strlen = 0 ∨ value.strlen = 0 then .ok (false, s) else attrAdd key value memory s
    | _, _ => .ok (false, s)
  | .delete key =>
    if !s.inited then .ok (true, s)
    else
      match key with
      | none =>
        -- the search compares the key of the first record it meets with the null pointer
        if s.records = [] then .ok (true, s) else .error .readOutside
      | some key =>
        match table.search s.records key with
        | none => .ok (true, s)
        | some a => attrDelete a s
  | .reset => if s.inited then .ok (true, .none) else .ok (true, s)

/-- One call after the other, whatever they return. -/
def runCalls (table : HashTable) : List AttrCall → AttrState → Except Fault AttrState
  | [], s => .ok s
  | call :: calls, s => do
    let (_, s) ← mysqlOptionsv table call s
    runCalls table calls s

/-- The calls that `ma_set_connect_attrs_extend` makes. -/
def extendCalls (c : Client) (memory : CStr × CStr → Memory) : List AttrCall :=
  [.delete (some (.ofText "__client_ip")), .delete (some (.ofText "__client_port"))] ++
    (c.ipAttrs ++ c.obConnectAttrs).map fun pair => .add (some pair.1) (some pair.2) (memory pair)

/-- The attributes that `ma_send_connect_attr` writes behind their length. -/
def attrBytes (table : HashTable) (s : AttrState) : List UInt8 :=
  (((table.elements s.records).map Attr.parts).flatten).flatten

/-- What `ma_send_connect_attr` writes, when the server takes attributes. -/
def sendConnectAttr (table : HashTable) (s : AttrState) : List UInt8 := storeLength s.len ++ attrBytes table s

/-! ## the accounts -/

/-- The accounts are right. -/
structure Accounted (s : AttrState) : Prop where
  len_eq : s.len = storageOf s.records
  len_le : s.len ≤ 0xFFFF

theorem accounted_none : Accounted .none := ⟨rfl, Nat.zero_le _⟩

theorem attrAdd_eq (key value : CStr) (memory : Memory) (s : AttrState) : attrAdd key value memory s =
      if 0xFFFF < (Attr.mk key value).storageLen + s.len then .ok (false, s)
      else if !s.inited && !memory.init then .ok (false, s)
      else if !memory.record || !memory.insert then .ok (false, { s with inited := true })
      else .ok (true, ⟨true, ⟨key, value⟩ :: s.records, s.len + (Attr.mk key value).storageLen⟩) := by
  rw [attrAdd, getStoreLength_eq, getStoreLength_eq]
  rfl

variable {s : AttrState}

theorem accounted_add (key value : CStr) (memory : Memory) (h : Accounted s) :
    ∃ r s', attrAdd key value memory s = .ok (r, s') ∧ Accounted s' := by
  rw [attrAdd_eq]
  by_cases hlarge : 0xFFFF < (Attr.mk key value).storageLen + s.len
  · exact ⟨_, _, if_pos hlarge, h⟩
  rw [if_neg hlarge]
  by_cases hinit : (!s.inited && !memory.init) = true
  · exact ⟨_, _, if_pos hinit, h⟩
  rw [if_neg hinit]
  by_cases hmemory : (!memory.record || !memory.insert) = true
  · exact ⟨_, _, if_pos hmemory, h.len_eq, h.len_le⟩
  refine ⟨_, _, if_neg hmemory, ?_, ?_⟩
  · show s.len + (Attr.mk key value).storageLen = storageOf (⟨key, value⟩ :: s.records)
    rw [h.len_eq, storageOf, storageOf, map_cons, sum_cons, add_comm]
  · show s.len + (Attr.mk key value).storageLen ≤ 0xFFFF
    omega

theorem subSize_of_le {a b : Nat} (h : b ≤ a) (ha : a < 2 ^ 64) : subSize a b = a - b := by
  unfold subSize
  omega

theorem accounted_delete {a : Attr} (h : Accounted s) (ha : a ∈ s.records) :
    ∃ r s', attrDelete a s = .ok (r, s') ∧ Accounted s' := by
  have hstorage := ConnectAttrs.storageOf_erase ha
  have hlen := h.len_eq
  have hle := h.len_le
  have hsize : a.storageLen =
      (a.key.strlen + mysqlStoreLengthSize a.key.strlen) + (a.value.strlen + mysqlStoreLengthSize a.value.strlen) := by
    unfold Attr.storageLen mysqlStoreLengthSize
    omega
  refine ⟨true, ⟨s.inited, s.records.erase a, storageOf (s.records.erase a)⟩, ?_, rfl, ?_⟩
  · have hkey : subSize s.len (a.key.strlen + mysqlStoreLengthSize a.key.strlen) =
        storageOf (s.records.erase a) + (a.value.strlen + mysqlStoreLengthSize a.value.strlen) := by
      rw [subSize_of_le (by omega) (by omega)]
      omega
    rw [attrDelete, getStoreLength_eq, ok_bind, getStoreLength_eq, ok_bind, hkey,
      subSize_of_le (Nat.le_add_left _ _) (by omega), Nat.add_sub_cancel]
    rfl
  · show storageOf (s.records.erase a) ≤ 0xFFFF
    omega

/-- A call that does not delete the null pointer. -/
def AttrCall.Named : AttrCall → Prop
  | .delete none => False
  | _ => True

/-- **A call keeps the accounts**, and it returns unless it is asked to delete the null pointer. -/
theorem accounted_step (table : HashTable) (call : AttrCall) (h : Accounted s) :
    (∃ r s', mysqlOptionsv table call s = .ok (r, s') ∧ Accounted s') ∨
      (¬call.Named ∧ mysqlOptionsv table call s = .error .readOutside) := by
  cases call with
  | add key value memory =>
    refine .inl ?_
    cases key with
    | none => exact ⟨_, _, rfl, h⟩
    | some key =>
      cases value with
      | none => exact ⟨_, _, rfl, h⟩
      | some value =>
        by_cases hempty : key.strlen = 0 ∨ value.strlen = 0
        · exact ⟨_, _, if_pos hempty, h⟩
        obtain ⟨r, s', hadd, hs'⟩ := accounted_add key value memory h
        exact ⟨r, s', (if_neg hempty).trans hadd, hs'⟩
  | delete key =>
    cases hinit : s.inited with
    | false => exact .inl ⟨true, s, by simp [mysqlOptionsv, hinit], h⟩
    | true =>
      cases key with
      | none =>
        by_cases hrecords : s.records = []
        · exact .inl ⟨true, s, by simp [mysqlOptionsv, hrecords], h⟩
        · exact .inr ⟨id, by simp [mysqlOptionsv, hinit, hrecords]⟩
      | some key =>
        refine .inl ?_
        cases hsearch : table.search s.records key with
        | none => exact ⟨true, s, by simp [mysqlOptionsv, hsearch], h⟩
        | some a =>
          obtain ⟨r, s', hdelete, hs'⟩ := accounted_delete h (table.search_mem hsearch).1
          exact ⟨r, s', by simpa [mysqlOptionsv, hinit, hsearch] using hdelete, hs'⟩
  | reset =>
    refine .inl ?_
    cases hinit : s.inited with
    | false => exact ⟨true, s, by simp [mysqlOptionsv, hinit], h⟩
    | true => exact ⟨true, .none, by simp [mysqlOptionsv, hinit], accounted_none⟩

/-- **Every sequence of calls keeps the accounts.** -/
theorem accounted_run (table : HashTable) (calls : List AttrCall) {s' : AttrState} (h : Accounted s)
    (hrun : runCalls table calls s = .ok s') : Accounted s' := by
  induction calls generalizing s with
  | nil =>
    cases hrun
    exact h
  | cons call calls ih =>
    rcases accounted_step table call h with ⟨r, t, hstep, ht⟩ | ⟨_, hstep⟩
    · rw [runCalls, hstep] at hrun
      exact ih ht hrun
    rw [runCalls, hstep] at hrun
    cases hrun

/-- A sequence of calls that never deletes the null pointer comes to its end. -/
theorem run_returns (table : HashTable) (calls : List AttrCall) (h : Accounted s)
    (hnamed : ∀ call ∈ calls, call.Named) : ∃ s', runCalls table calls s = .ok s' := by
  induction calls generalizing s with
  | nil => exact ⟨s, rfl⟩
  | cons call calls ih =>
    rw [forall_mem_cons] at hnamed
    rcases accounted_step table call h with ⟨r, t, hstep, ht⟩ | ⟨hnull, _⟩
    · rw [runCalls, hstep]
      exact ih ht hnamed.2
    · exact absurd hnamed.1 hnull

theorem extendCalls_named (c : Client) (memory : CStr × CStr → Memory) : ∀ call ∈ extendCalls c memory, call.Named := by
  intro call hcall
  rcases mem_append.mp hcall with hdelete | hadd
  · rw [mem_pair] at hdelete
    rcases hdelete with rfl | rfl
    · trivial
    · trivial
  obtain ⟨pair, _, rfl⟩ := mem_map.mp hadd
  trivial

/-! ## what is sent -/

theorem length_attrBytes (table : HashTable) (h : Accounted s) : (attrBytes table s).length = s.len := by
  have hsend := length_maSendConnectAttr table ⟨s.records, s.len, h.len_eq, h.len_le⟩
  rw [maSendConnectAttr, flatten_cons, length_append, length_storeLength] at hsend
  exact Nat.add_left_cancel hsend

/-- **The accounts are right after every sequence of calls, and the length that is sent is the length of
what follows it.** A sequence comes to its end unless it deletes the null pointer. -/
theorem attrs_accounted (table : HashTable) (calls : List AttrCall) :
    ((∀ call ∈ calls, call.Named) → ∃ s, runCalls table calls .none = .ok s) ∧
      ∀ before s, before <+: calls → runCalls table before .none = .ok s →
        s.len = storageOf s.records ∧ s.len ≤ 0xFFFF ∧
          ∀ c memory, ∃ s', runCalls table (extendCalls c memory) s = .ok s' ∧
            sendConnectAttr table s' = storeLength (attrBytes table s').length ++ attrBytes table s' := by
  refine ⟨run_returns table calls accounted_none, ?_⟩
  intro before s _ hrun
  have hs := accounted_run table before accounted_none hrun
  refine ⟨hs.len_eq, hs.len_le, ?_⟩
  intro c memory
  obtain ⟨s', hextend⟩ := run_returns table (extendCalls c memory) hs (extendCalls_named c memory)
  have hs' := accounted_run table (extendCalls c memory) hs hextend
  exact ⟨s', hextend, by rw [length_attrBytes table hs', sendConnectAttr]⟩

end ObConnector.Auth
