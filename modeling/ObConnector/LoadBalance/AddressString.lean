/-
# ObConnector.LoadBalance.AddressString -- address lists written as text.

`ob_mysql_real_connect2` takes its addresses as one text, `host:port` or `[host]:port` with commas in
between. `initOblbAddresslistStr` reads it with a scan over the bytes that keeps two positions, `s` and
`e`, and two flags. As many entries are allocated as there are commas, and one more.

What was written is read back only when it is one address in brackets (`readsBack_iff`). A first
address without brackets is lost, because `s` is set by a bracket or a comma and neither comes before
it; and of several addresses only the first gets its weight and state, because these are stored at
index `i`, which stays zero, and not at `idx`.

Nothing in the scan compares the number of entries with the number allocated, or the length of a host
with its field. `hostsOf` finds the hosts by looking ahead from every start; both are kept exactly when
these are few and short enough (`fits_iff`).
-/
import Mathlib.Data.List.Infix
import ObConnector.LoadBalance.Connect

namespace ObConnector.LoadBalance

open Lib List

/-! ## The scan -/

/-- The size of the field `host`. -/
def hostSize : Nat := 128

/-- What the scan keeps: `s`, `e`, `valid`, `instring`, and the entries up to `idx`. -/
structure Scan where
  s : Option Nat
  e : Option Nat
  valid : Bool
  instring : Bool
  addArr : List ObLbAddress

/-- An entry of the zeroed array with its host and port. -/
def storedAddress (host : List UInt8) (port : Int) : ObLbAddress :=
  ⟨0, host, port, 0, .black, false, 0, 0, none⟩

/-- `host` and `port` go to entry `idx`, the weight and the state to entry `i`, which is the first. -/
def storeAddress (str : List UInt8) (count s e : Nat) (rest : List UInt8) (addArr : List ObLbAddress) :
    Except Fault (List ObLbAddress) :=
  if count ≤ addArr.length ∨ e < s ∨ hostSize < e - s then .error .writeOutside
  else
    .ok ((addArr ++ [storedAddress ((str.drop s).take (e - s)) (atoi rest)]).modify 0 fun a =>
      { a with weight := 1, state := .white })

/-- A colon outside brackets. -/
def scanColon (str : List UInt8) (count p : Nat) (rest : List UInt8) (st : Scan) : Except Fault Scan :=
  match st.s, (if st.valid then st.e else some p) with
  | some s, some e => do
    let addArr ← storeAddress str count s e rest st.addArr
    return { st with s := none, e := none, valid := false, addArr := addArr }
  | _, e => .ok { st with e := e }

/-- The byte `c` at position `p`, in front of `rest`. -/
def scanByte (str : List UInt8) (count p : Nat) (c : UInt8) (rest : List UInt8) (st : Scan) :
    Except Fault Scan :=
  if st.instring = false ∧ c = 91 then
    .ok { st with instring := true, s := some (p + 1), valid := false }
  else if st.instring = true ∧ c = 93 then
    .ok { st with instring := false, e := some p, valid := true }
  else if st.instring = false ∧ c = 44 then
    .ok { st with s := some (p + 1), e := none, valid := false }
  else if st.instring = false ∧ c = 58 then scanColon str count p rest st
  else .ok st

/-- The loop over the text. -/
def scanText (str : List UInt8) (count : Nat) : Nat → List UInt8 → Scan → Except Fault Scan
  | _, [], st => .ok st
  | p, c :: rest, st => do
    let st ← scanByte str count p c rest st
    scanText str count (p + 1) rest st

/-- The entries that are allocated: one for each comma, and one more. -/
def allocated (str : List UInt8) : Nat := str.count 44 + 1

/-- `init_oblb_addresslist_str`. -/
def initOblbAddresslistStr (str : List UInt8) (oblbStrategy : ObClientLBOption) :
    Except Fault ObLbAddressList := do
  let st ← scanText str (allocated str) 0 str ⟨none, none, false, false, []⟩
  return ⟨oblbStrategy, 0, st.addArr⟩

/-! ## Texts without separators -/

variable {c : UInt8}

section Scanning

variable {str : List UInt8} {count p : Nat} {rest : List UInt8} {st : Scan}

theorem scanByte_open (h : st.instring = false) :
    scanByte str count p 91 rest st = .ok { st with instring := true, s := some (p + 1), valid := false } :=
  if_pos ⟨h, rfl⟩

theorem scanByte_close (h : st.instring = true) :
    scanByte str count p 93 rest st = .ok { st with instring := false, e := some p, valid := true } := by
  rw [scanByte, if_neg (by rw [h]; simp), if_pos ⟨h, rfl⟩]

theorem scanByte_comma (h : st.instring = false) :
    scanByte str count p 44 rest st = .ok { st with s := some (p + 1), e := none, valid := false } := by
  rw [scanByte, if_neg (by simp), if_neg (by simp), if_pos ⟨h, rfl⟩]

theorem scanByte_colon (h : st.instring = false) :
    scanByte str count p 58 rest st = scanColon str count p rest st := by
  rw [scanByte, if_neg (by simp), if_neg (by simp), if_neg (by simp), if_pos ⟨h, rfl⟩]

/-- Inside brackets only the closing one counts. -/
theorem scanByte_inside (h : st.instring = true) (hc : c ≠ 93) : scanByte str count p c rest st = .ok st := by
  rw [scanByte, if_neg (by rw [h]; simp), if_neg (by simp [hc]), if_neg (by rw [h]; simp), if_neg (by rw [h]; simp)]

/-- Outside brackets the separators count. -/
theorem scanByte_plain (h : st.instring = false) (hopen : c ≠ 91) (hcomma : c ≠ 44) (hcolon : c ≠ 58) :
    scanByte str count p c rest st = .ok st := by
  rw [scanByte, if_neg (by simp [hopen]), if_neg (by rw [h]; simp), if_neg (by simp [hcomma]),
    if_neg (by simp [hcolon])]

theorem scanText_inside {text : List UInt8} (h : st.instring = true) (htext : 93 ∉ text) :
    scanText str count p (text ++ rest) st = scanText str count (p + text.length) rest st := by
  induction text generalizing p with
  | nil => rfl
  | cons c text ih =>
    obtain ⟨hc, htext⟩ := not_or.1 (mt mem_cons.2 htext)
    rw [cons_append, scanText, scanByte_inside h (fun hc' => hc hc'.symm), ok_bind, ih htext,
      length_cons, add_assoc, add_comm 1]

theorem scanText_plain {text : List UInt8} (h : st.instring = false)
    (htext : ∀ c ∈ text, c ≠ 91 ∧ c ≠ 44 ∧ c ≠ 58) :
    scanText str count p (text ++ rest) st = scanText str count (p + text.length) rest st := by
  induction text generalizing p with
  | nil => rfl
  | cons c text ih =>
    obtain ⟨hopen, hcomma, hcolon⟩ := htext c mem_cons_self
    rw [cons_append, scanText, scanByte_plain h hopen hcomma hcolon, ok_bind,
      ih fun d hd => htext d (mem_cons_of_mem _ hd), length_cons, add_assoc, add_comm 1]

end Scanning

/-! ## Reading back what was written -/

/-- An address as it is written. -/
structure WrittenAddress where
  bracketed : Bool
  host : List UInt8
  port : Nat

/-- What may be written: a host that fits its field and holds no separator (in brackets, no bracket),
and a port. -/
structure WrittenAddress.Ok (a : WrittenAddress) : Prop where
  length : a.host.length ≤ 127
  chars : ∀ c ∈ a.host, c ≠ 0 ∧ c ≠ 91 ∧ c ≠ 93 ∧ (a.bracketed = false → c ≠ 44 ∧ c ≠ 58)
  port : a.port ≤ 65535

/-- The text of an address. -/
def WrittenAddress.text (a : WrittenAddress) : List UInt8 :=
  (if a.bracketed then 91 :: a.host ++ [93] else a.host) ++ 58 :: decimal a.port

/-- The text of a list of addresses. -/
def writtenText : List WrittenAddress → List UInt8
  | [] => []
  | [a] => a.text
  | a :: rest => a.text ++ 44 :: writtenText rest

/-- What an entry says. -/
structure Entry where
  host : List UInt8
  port : Int
  weight : Int32
  state : ObLbAddressState
  deriving DecidableEq

/-- What is read. -/
def entryOf (a : ObLbAddress) : Entry := ⟨a.host, a.port, a.weight, a.state⟩

/-- What should be read. -/
def WrittenAddress.entry (a : WrittenAddress) : Entry := ⟨a.host, a.port, 1, .white⟩

/-- The text of the addresses is read as these addresses. -/
def ReadsBack (addrs : List WrittenAddress) : Prop :=
  ∃ l, initOblbAddresslistStr (writtenText addrs) .rotation = .ok l ∧
    l.addArr.map entryOf = addrs.map WrittenAddress.entry

/-- Digits are no separators. -/
theorem decimal_plain {n : Nat} (h : c ∈ decimal n) : c ≠ 91 ∧ c ≠ 44 ∧ c ≠ 58 := by
  have hdigit := isDigit_of_mem_decimal h
  refine ⟨?_, ?_, ?_⟩ <;> rintro rfl <;> exact absurd hdigit (by decide)

variable {str : List UInt8} {count : Nat}

theorem scanText_digits {p : Nat} {st : Scan} (h : st.instring = false) (n : Nat) :
    scanText str count p (decimal n) st = .ok st := by
  have hplain : scanText str count p (decimal n ++ []) st = _ := scanText_plain h fun c => decimal_plain
  rwa [append_nil] at hplain

/-- One address in brackets is read back. -/
theorem readsBack_bracketed {a : WrittenAddress} (h : a.Ok) (hb : a.bracketed = true) : ReadsBack [a] := by
  have hlength := h.length
  have htext : writtenText [a] = 91 :: (a.host ++ 93 :: 58 :: decimal a.port) := by
    simp [writtenText, WrittenAddress.text, hb]
  have hhost : ((writtenText [a]).drop 1).take (1 + a.host.length - 1) = a.host := by
    rw [htext, drop_succ_cons, drop_zero, Nat.add_sub_cancel_left, take_left]
  have hclose : 93 ∉ a.host := fun hmem => (h.chars _ hmem).2.2.1 rfl
  have hscan : scanText (writtenText [a]) (allocated (writtenText [a])) 0 (writtenText [a])
      ⟨none, none, false, false, []⟩ =
      .ok ⟨none, none, false, false, [{ storedAddress a.host a.port with weight := 1, state := .white }]⟩ := by
    conv_lhs => arg 4; rw [htext]
    rw [scanText, scanByte_open rfl, ok_bind, scanText_inside rfl hclose, scanText, scanByte_close rfl, ok_bind,
      scanText, scanByte_colon rfl, scanColon]
    simp only [if_true]
    rw [storeAddress, if_neg, hhost, atoi_decimal (h.port.trans_lt (by decide))]
    · exact scanText_digits rfl a.port
    · unfold allocated hostSize
      simp only [length_nil]
      omega
  refine ⟨_, by rw [initOblbAddresslistStr, hscan]; rfl, rfl⟩

/-- A first address without brackets is lost. -/
theorem not_readsBack_plain {a : WrittenAddress} (h : a.Ok) (hb : a.bracketed = false) : ¬ReadsBack [a] := by
  have htext : writtenText [a] = a.host ++ 58 :: decimal a.port := by
    simp [writtenText, WrittenAddress.text, hb]
  have hplain : ∀ c ∈ a.host, c ≠ 91 ∧ c ≠ 44 ∧ c ≠ 58 := by
    intro c hc
    obtain ⟨-, hopen, -, hsep⟩ := h.chars c hc
    exact ⟨hopen, (hsep hb).1, (hsep hb).2⟩
  rintro ⟨l, hl, hentries⟩
  obtain ⟨st, hscan, hst⟩ := bind_eq_ok.1 hl
  conv_lhs at hscan => arg 4; rw [htext]
  rw [scanText_plain rfl hplain, scanText, scanByte_colon rfl, scanColon] at hscan
  simp only [ok_bind] at hscan
  rw [scanText_digits rfl] at hscan
  cases hscan
  cases hst
  cases hentries

/-- Only the first entry ever gets a weight. -/
def FirstWeighted (addArr : List ObLbAddress) : Prop := ∀ a ∈ addArr.tail, a.weight = 0

variable {addArr : List ObLbAddress}

theorem FirstWeighted.store {rest : List UInt8} {s e : Nat} {addArr' : List ObLbAddress}
    (h : FirstWeighted addArr) (hstore : storeAddress str count s e rest addArr = .ok addArr') :
    FirstWeighted addArr' := by
  unfold storeAddress at hstore
  split at hstore
  · cases hstore
  cases hstore
  cases addArr with
  | nil => exact fun a ha => absurd ha not_mem_nil
  | cons b bs =>
    intro a ha
    rcases mem_append.1 ha with ha | ha
    · exact h a ha
    obtain rfl := mem_singleton.1 ha
    rfl

theorem FirstWeighted.scanByte {rest : List UInt8} {p : Nat} {st st' : Scan} (h : FirstWeighted st.addArr)
    (hscan : scanByte str count p c rest st = .ok st') : FirstWeighted st'.addArr := by
  unfold LoadBalance.scanByte at hscan
  split at hscan
  · cases hscan
    exact h
  split at hscan
  · cases hscan
    exact h
  split at hscan
  · cases hscan
    exact h
  split at hscan
  · unfold scanColon at hscan
    split at hscan
    · obtain ⟨addArr, hstore, hst⟩ := bind_eq_ok.1 hscan
      cases hst
      exact h.store hstore
    cases hscan
    exact h
  · cases hscan
    exact h

theorem FirstWeighted.scanText {text : List UInt8} {p : Nat} {st st' : Scan} (h : FirstWeighted st.addArr)
    (hscan : scanText str count p text st = .ok st') : FirstWeighted st'.addArr := by
  induction text generalizing p st with
  | nil =>
    cases hscan
    exact h
  | cons c rest ih =>
    obtain ⟨st1, hbyte, hrest⟩ := bind_eq_ok.1 hscan
    exact ih (h.scanByte hbyte) hrest

/-- **What was written is read back exactly when it is one address in brackets.** -/
theorem readsBack_iff {addrs : List WrittenAddress} (hne : addrs ≠ []) (hok : ∀ a ∈ addrs, a.Ok) :
    ReadsBack addrs ↔ ∃ a, addrs = [a] ∧ a.bracketed = true := by
  constructor
  · intro hread
    match addrs, hne with
    | [a], _ =>
      cases hb : a.bracketed with
      | true => exact ⟨a, rfl, hb⟩
      | false => exact absurd hread (not_readsBack_plain (hok a mem_cons_self) hb)
    | a :: b :: rest, _ =>
      -- the second entry has no weight
      obtain ⟨l, hl, hentries⟩ := hread
      obtain ⟨st, hscan, hst⟩ := bind_eq_ok.1 hl
      cases hst
      have hnil : FirstWeighted [] := fun a ha => absurd ha not_mem_nil
      have hfirst : FirstWeighted st.addArr := FirstWeighted.scanText hnil hscan
      simp only [map_cons] at hentries
      obtain ⟨x, xs, hx, -, hentries⟩ := map_eq_cons_iff.1 hentries
      obtain ⟨y, ys, rfl, hy, -⟩ := map_eq_cons_iff.1 hentries
      have hweight : y.weight = 0 := hfirst y (by rw [hx]; exact mem_cons_self)
      have hone : y.weight = 1 := congrArg Entry.weight hy
      rw [hweight] at hone
      exact absurd hone (by decide)
  · rintro ⟨a, rfl, hb⟩
    exact readsBack_bracketed (hok a mem_cons_self) hb

/-! ## Texts whatsoever -/

/-- A byte that means something outside brackets. -/
def IsSeparator (c : UInt8) : Prop := c = 91 ∨ c = 44 ∨ c = 58

instance (c : UInt8) : Decidable (IsSeparator c) := by unfold IsSeparator; infer_instance

/-- The next separator is a colon. -/
def ColonNext (text : List UInt8) : Prop := text.find? (fun c => IsSeparator c) = some 58

instance (text : List UInt8) : Decidable (ColonNext text) := by unfold ColonNext; infer_instance

/-- The host that ends with a colon, when `host` has been read of it. -/
def plainHost (host text : List UInt8) : Option (List UInt8) :=
  if ColonNext text then some (host ++ text.takeWhile fun c => ¬IsSeparator c) else none

/-- The host that ends with a bracket, with a colon as the next separator behind it. -/
def bracketedHost (host text : List UInt8) : Option (List UInt8) :=
  match text.dropWhile fun c => c ≠ 93 with
  | [] => none
  | _ :: rest => if ColonNext rest then some (host ++ text.takeWhile fun c => c ≠ 93) else none

/-- The hosts of a text: one for each bracket that opens outside brackets, or comma there, from which a
colon is reached. -/
def hostsOf : Bool → List UInt8 → List (List UInt8)
  | _, [] => []
  | true, c :: rest => hostsOf (c ≠ 93) rest
  | false, c :: rest =>
    (if c = 91 then bracketedHost [] rest else if c = 44 then plainHost [] rest else none).toList ++
      hostsOf (c = 91) rest

/-- Everything is stored inside: the entries in the array, the hosts with a NUL in their fields. -/
def Fits (str : List UInt8) : Prop :=
  ∃ l, initOblbAddresslistStr str .rotation = .ok l ∧ l.addArr.length ≤ allocated str ∧
    ∀ a ∈ l.addArr, a.host.length < hostSize

/-- What the scan has in hand: nothing, a host behind a comma, a host in an open bracket, or one whose
bracket is closed. -/
inductive Mode where
  | idle
  | plain (host : List UInt8)
  | inside (host : List UInt8)
  | closed (host : List UInt8)

namespace Mode

/-- What is in hand behind the byte `c`. -/
def next : Mode → UInt8 → Mode
  | .inside host, c => if c = 93 then .closed host else .inside (host ++ [c])
  | .idle, c => if c = 91 then .inside [] else if c = 44 then .plain [] else .idle
  | .plain host, c =>
    if c = 91 then .inside [] else if c = 44 then .plain [] else if c = 58 then .idle else .plain (host ++ [c])
  | .closed host, c =>
    if c = 91 then .inside [] else if c = 44 then .plain [] else if c = 58 then .idle else .closed host

/-- The host that is stored at the byte `c`. -/
def emits : Mode → UInt8 → Option (List UInt8)
  | .plain host, c => if c = 58 then some host else none
  | .closed host, c => if c = 58 then some host else none
  | _, _ => none

/-- The hosts that are stored along a text. -/
def hosts : Mode → List UInt8 → List (List UInt8)
  | _, [] => []
  | m, c :: rest => (m.emits c).toList ++ (m.next c).hosts rest

def isInside : Mode → Bool
  | .inside _ => true
  | .idle | .plain _ | .closed _ => false

/-- What becomes of the host in hand. -/
def pending : Mode → List UInt8 → Option (List UInt8)
  | .idle, _ => none
  | .plain host, text => plainHost host text
  | .inside host, text => bracketedHost host text
  | .closed host, text => if ColonNext text then some host else none

variable {c : UInt8} {rest host : List UInt8}

theorem colonNext_cons (hsep : ¬IsSeparator c) : ColonNext (c :: rest) ↔ ColonNext rest := by
  rw [ColonNext, find?_cons_of_neg (by simpa using hsep), ColonNext]

theorem colonNext_separator (hsep : IsSeparator c) : ColonNext (c :: rest) ↔ c = 58 := by
  rw [ColonNext, find?_cons_of_pos (by simpa using hsep), Option.some.injEq]

theorem plainHost_cons (hsep : ¬IsSeparator c) : plainHost host (c :: rest) = plainHost (host ++ [c]) rest := by
  rw [plainHost, plainHost, takeWhile_cons_of_pos (by simpa using hsep), append_assoc, singleton_append]
  simp only [colonNext_cons hsep]

theorem plainHost_separator (hsep : IsSeparator c) :
    plainHost host (c :: rest) = if c = 58 then some host else none := by
  rw [plainHost, takeWhile_cons_of_neg (by simpa using hsep), append_nil]
  simp only [colonNext_separator hsep]

theorem bracketedHost_cons (hc : c ≠ 93) : bracketedHost host (c :: rest) = bracketedHost (host ++ [c]) rest := by
  rw [bracketedHost, bracketedHost, dropWhile_cons_of_pos (by simpa using hc), takeWhile_cons_of_pos (by simpa using hc),
    append_assoc, singleton_append]

theorem bracketedHost_close : bracketedHost host (93 :: rest) = if ColonNext rest then some host else none := by
  rw [bracketedHost, dropWhile_cons_of_neg (by simp), takeWhile_cons_of_neg (by simp), append_nil]

/-- **The hosts stored along a text are the one in hand and those of the text.** -/
theorem hosts_eq (m : Mode) (text : List UInt8) :
    m.hosts text = (m.pending text).toList ++ hostsOf m.isInside text := by
  induction text generalizing m with
  | nil => cases m <;> rfl
  | cons c rest ih =>
    rw [hosts, ih]
    cases m with
    | inside host =>
      by_cases hc : c = 93
      · subst hc
        rw [pending, bracketedHost_close]
        rfl
      · have hnext : next (.inside host) c = .inside (host ++ [c]) := if_neg hc
        rw [hnext, pending, pending, bracketedHost_cons hc, isInside, isInside, hostsOf, decide_eq_true hc]
        rfl
    | idle =>
      by_cases hopen : c = 91
      · subst hopen
        rfl
      by_cases hcomma : c = 44
      · subst hcomma
        rfl
      have hnext : next .idle c = .idle := by rw [next, if_neg hopen, if_neg hcomma]
      rw [hnext, isInside, hostsOf, if_neg hopen, if_neg hcomma, decide_eq_false hopen]
      rfl
    | plain host =>
      by_cases hsep : IsSeparator c
      · rw [pending, plainHost_separator hsep]
        rcases hsep with rfl | rfl | rfl <;> rfl
      · obtain ⟨hopen, hcomma, hcolon⟩ : c ≠ 91 ∧ c ≠ 44 ∧ c ≠ 58 := by
          simpa [IsSeparator, not_or] using hsep
        have hnext : next (.plain host) c = .plain (host ++ [c]) := by
          rw [next, if_neg hopen, if_neg hcomma, if_neg hcolon]
        rw [hnext, emits, if_neg hcolon, pending, pending, plainHost_cons hsep, isInside, isInside, hostsOf, if_neg hopen,
          if_neg hcomma, decide_eq_false hopen]
        rfl
    | closed host =>
      by_cases hsep : IsSeparator c
      · rw [pending]
        simp only [colonNext_separator hsep]
        rcases hsep with rfl | rfl | rfl <;> rfl
      · obtain ⟨hopen, hcomma, hcolon⟩ : c ≠ 91 ∧ c ≠ 44 ∧ c ≠ 58 := by
          simpa [IsSeparator, not_or] using hsep
        have hnext : next (.closed host) c = .closed host := by
          rw [next, if_neg hopen, if_neg hcomma, if_neg hcolon]
        rw [hnext, emits, if_neg hcolon, pending, pending, isInside, hostsOf, if_neg hopen, if_neg hcomma,
          decide_eq_false hopen]
        simp only [colonNext_cons hsep]
        rfl

end Mode

/-- What the positions and flags of the scan say behind the text `before`. -/
def InMode (before : List UInt8) (st : Scan) : Mode → Prop
  | .idle => st.s = none ∧ st.instring = false ∧ st.valid = false
  | .plain host => ∃ front, before = front ++ host ∧ st.s = some front.length ∧ st.instring = false ∧ st.valid = false
  | .inside host => ∃ front, before = front ++ host ∧ st.s = some front.length ∧ st.instring = true
  | .closed host => ∃ front gap, before = front ++ (host ++ gap) ∧ st.s = some front.length ∧
    st.e = some (front.length + host.length) ∧ st.instring = false ∧ st.valid = true

section Steps

variable {before rest : List UInt8} {st : Scan} {m : Mode}

theorem InMode.instring (h : InMode before st m) : st.instring = m.isInside := by
  cases m with
  | idle => exact h.2.1
  | plain host =>
    obtain ⟨-, -, -, hin, -⟩ := h
    exact hin
  | inside host =>
    obtain ⟨-, -, -, hin⟩ := h
    exact hin
  | closed host =>
    obtain ⟨-, -, -, -, -, hin, -⟩ := h
    exact hin

/-- A byte at which no host is stored. -/
theorem InMode.scanByte (h : InMode before st m) (hc : m.emits c = none) (str : List UInt8) (count : Nat)
    (rest : List UInt8) : ∃ st', LoadBalance.scanByte str count before.length c rest st = .ok st' ∧ st'.addArr = st.addArr ∧
      InMode (before ++ [c]) st' (m.next c) := by
  have hopened : InMode (before ++ [91]) { st with instring := true, s := some (before.length + 1), valid := false }
      (.inside []) := ⟨before ++ [91], (append_nil _).symm, by rw [length_append]; rfl, rfl⟩
  have hstarted : st.instring = false →
      InMode (before ++ [44]) { st with s := some (before.length + 1), e := none, valid := false } (.plain []) :=
    fun hin => ⟨before ++ [44], (append_nil _).symm, by rw [length_append]; rfl, hin, rfl⟩
  have hin := h.instring
  cases m with
  | inside host =>
    obtain ⟨front, rfl, hs, -⟩ := h
    by_cases hclose : c = 93
    · subst hclose
      refine ⟨_, scanByte_close hin, rfl, front, [93], ?_, hs, ?_, rfl, rfl⟩
      · rw [append_assoc]
      · rw [length_append]
    · have hnext : Mode.next (.inside host) c = .inside (host ++ [c]) := if_neg hclose
      rw [hnext]
      exact ⟨st, scanByte_inside hin hclose, rfl, front, by rw [append_assoc], hs, hin⟩
  | idle =>
    by_cases hopen : c = 91
    · subst hopen
      exact ⟨_, scanByte_open hin, rfl, hopened⟩
    by_cases hcomma : c = 44
    · subst hcomma
      exact ⟨_, scanByte_comma hin, rfl, hstarted hin⟩
    have hnext : Mode.next .idle c = .idle := by rw [Mode.next, if_neg hopen, if_neg hcomma]
    rw [hnext]
    by_cases hcolon : c = 58
    · subst hcolon
      refine ⟨{ st with e := some before.length }, ?_, rfl, h.1, hin, h.2.2⟩
      rw [scanByte_colon hin, scanColon, h.1, h.2.2]
      rfl
    · exact ⟨st, scanByte_plain hin hopen hcomma hcolon, rfl, h⟩
  | plain host =>
    by_cases hopen : c = 91
    · subst hopen
      exact ⟨_, scanByte_open hin, rfl, hopened⟩
    by_cases hcomma : c = 44
    · subst hcomma
      exact ⟨_, scanByte_comma hin, rfl, hstarted hin⟩
    have hcolon : c ≠ 58 := by
      rintro rfl
      cases hc
    have hnext : Mode.next (.plain host) c = .plain (host ++ [c]) := by
      rw [Mode.next, if_neg hopen, if_neg hcomma, if_neg hcolon]
    obtain ⟨front, rfl, hs, -, hvalid⟩ := h
    rw [hnext]
    exact ⟨st, scanByte_plain hin hopen hcomma hcolon, rfl, front, by rw [append_assoc], hs, hin, hvalid⟩
  | closed host =>
    by_cases hopen : c = 91
    · subst hopen
      exact ⟨_, scanByte_open hin, rfl, hopened⟩
    by_cases hcomma : c = 44
    · subst hcomma
      exact ⟨_, scanByte_comma hin, rfl, hstarted hin⟩
    have hcolon : c ≠ 58 := by
      rintro rfl
      cases hc
    have hnext : Mode.next (.closed host) c = .closed host := by
      rw [Mode.next, if_neg hopen, if_neg hcomma, if_neg hcolon]
    obtain ⟨front, gap, rfl, hs, he, -, hvalid⟩ := h
    rw [hnext]
    refine ⟨st, scanByte_plain hin hopen hcomma hcolon, rfl, front, gap ++ [c], ?_, hs, he, hin, hvalid⟩
    simp only [append_assoc]

/-- The scan behind a colon at which the host has been stored. -/
def Scan.stored (st : Scan) (host rest : List UInt8) : Scan :=
  { st with
    s := none
    e := none
    valid := false
    addArr := (st.addArr ++ [storedAddress host (atoi rest)]).modify 0 fun a => { a with weight := 1, state := .white } }

/-- A colon with a host in hand stores it. -/
theorem InMode.scanByte_stores {host : List UInt8} (h : InMode before st m) (hc : m.emits c = some host)
    (hstr : str = before ++ c :: rest) (count : Nat) :
    (LoadBalance.scanByte str count before.length c rest st =
      if count ≤ st.addArr.length ∨ hostSize < host.length then .error .writeOutside
      else .ok (st.stored host rest)) ∧ st.instring = false ∧ m.next c = .idle := by
  -- both ways the host is what stands between `s` and `e`
  have hstore : ∀ front gap : List UInt8, before = front ++ (host ++ gap) → st.s = some front.length →
      (if st.valid then st.e else some before.length) = some (front.length + host.length) → st.instring = false → c = 58 →
      LoadBalance.scanByte str count before.length c rest st =
        if count ≤ st.addArr.length ∨ hostSize < host.length then .error .writeOutside
        else .ok (st.stored host rest) := by
    rintro front gap hbefore hs he hin rfl
    have hhost : (str.drop front.length).take (front.length + host.length - front.length) = host := by
      rw [hstr, hbefore, append_assoc, drop_left, append_assoc, Nat.add_sub_cancel_left, take_left]
    rw [scanByte_colon hin, scanColon, hs, he]
    dsimp only
    rw [storeAddress, hhost, Nat.add_sub_cancel_left]
    by_cases hfull : count ≤ st.addArr.length ∨ hostSize < host.length
    · rw [if_pos hfull, if_pos (by omega)]
      rfl
    · rw [if_neg hfull, if_neg (by omega)]
      rfl
  cases m with
  | idle => cases hc
  | inside host => cases hc
  | plain h' =>
    obtain ⟨front, hbefore, hs, hin, hvalid⟩ := h
    by_cases hcolon : c = 58
    · rw [Mode.emits, if_pos hcolon] at hc
      cases hc
      refine ⟨hstore front [] (by rw [append_nil]; exact hbefore) hs ?_ hin hcolon, hin, by subst hcolon; rfl⟩
      rw [hvalid, hbefore, length_append]
      rfl
    · rw [Mode.emits, if_neg hcolon] at hc
      cases hc
  | closed h' =>
    obtain ⟨front, gap, hbefore, hs, he, hin, hvalid⟩ := h
    by_cases hcolon : c = 58
    · rw [Mode.emits, if_pos hcolon] at hc
      cases hc
      exact ⟨hstore front gap hbefore hs (by rw [hvalid, if_pos rfl, he]) hin hcolon, hin, by subst hcolon; rfl⟩
    · rw [Mode.emits, if_neg hcolon] at hc
      cases hc

theorem Scan.map_host_stored (st : Scan) (host rest : List UInt8) :
    (st.stored host rest).addArr.map ObLbAddress.host = st.addArr.map ObLbAddress.host ++ [host] := by
  obtain ⟨s, e, valid, instring, addArr⟩ := st
  cases addArr with
  | nil => rfl
  | cons a addArr => simp [Scan.stored, storedAddress]

/-- **The scan** stores the hosts along the text, or leaves the array or a field because of them. -/
theorem InMode.scanText (h : InMode before st m) (hstr : str = before ++ rest) (hroom : st.addArr.length ≤ count) :
    (∃ st', LoadBalance.scanText str count before.length rest st = .ok st' ∧ st'.addArr.length ≤ count ∧
        st'.addArr.map ObLbAddress.host = st.addArr.map ObLbAddress.host ++ m.hosts rest) ∨
      (∃ f, LoadBalance.scanText str count before.length rest st = .error f) ∧
        (count < st.addArr.length + (m.hosts rest).length ∨ ∃ host ∈ m.hosts rest, hostSize < host.length) := by
  induction rest generalizing before st m with
  | nil => exact .inl ⟨st, rfl, hroom, (append_nil _).symm⟩
  | cons c rest ih =>
    have hstr' : str = before ++ [c] ++ rest := by rw [hstr, append_assoc]; rfl
    have hlength : before.length + 1 = (before ++ [c]).length := by rw [length_append]; rfl
    rw [LoadBalance.scanText, Mode.hosts, hlength]
    cases hc : m.emits c with
    | none =>
      obtain ⟨st1, hbyte, haddArr, hmode⟩ := h.scanByte hc str count rest
      rw [hbyte, ok_bind, ← haddArr]
      exact ih hmode hstr' (haddArr ▸ hroom)
    | some host =>
      obtain ⟨hbyte, hin, hidle⟩ := h.scanByte_stores hc hstr count
      rw [hbyte, hidle, Option.toList_some, singleton_append, length_cons]
      by_cases hfull : count ≤ st.addArr.length ∨ hostSize < host.length
      · rw [if_pos hfull]
        refine .inr ⟨⟨_, rfl⟩, ?_⟩
        rcases hfull with hfull | hlong
        · exact .inl (by omega)
        · exact .inr ⟨host, mem_cons_self, hlong⟩
      rw [if_neg hfull, ok_bind]
      have hmode : InMode (before ++ [c]) (st.stored host rest) .idle := ⟨rfl, hin, rfl⟩
      have hmap := st.map_host_stored host rest
      have hone : (st.stored host rest).addArr.length = st.addArr.length + 1 := by
        have hlen := congrArg List.length hmap
        rwa [length_map, length_append, length_map] at hlen
      rcases ih hmode hstr' (by omega) with ⟨st', hrun, hin', hhosts⟩ | ⟨hfault, hbad⟩
      · refine .inl ⟨st', hrun, hin', ?_⟩
        rw [hhosts, hmap, append_assoc]
        rfl
      · refine .inr ⟨hfault, ?_⟩
        rcases hbad with hbad | ⟨long, hlong, hsize⟩
        · exact .inl (by omega)
        · exact .inr ⟨long, mem_cons_of_mem _ hlong, hsize⟩

end Steps

/-- **A text is read without leaving the array or a field** exactly when it has no more hosts than commas
and one, and each of them leaves room for its NUL. -/
theorem fits_iff (str : List UInt8) :
    Fits str ↔ (hostsOf false str).length ≤ str.count 44 + 1 ∧ ∀ host ∈ hostsOf false str, host.length < hostSize := by
  have hstart : InMode [] ⟨none, none, false, false, []⟩ .idle := ⟨rfl, rfl, rfl⟩
  have hhosts : Mode.idle.hosts str = hostsOf false str := Mode.hosts_eq .idle str
  rcases hstart.scanText (nil_append str).symm (Nat.zero_le (allocated str)) with
    ⟨st, hrun, hroom, hmap⟩ | ⟨⟨f, hfault⟩, hbad⟩
  · rw [map_nil, nil_append, hhosts] at hmap
    have hlist : initOblbAddresslistStr str .rotation = .ok ⟨.rotation, 0, st.addArr⟩ := by
      rw [initOblbAddresslistStr, show LoadBalance.scanText str (allocated str) 0 str _ = _ from hrun]
      rfl
    rw [← hmap, length_map]
    constructor
    · rintro ⟨l, hl, hentries, hfields⟩
      rw [hlist] at hl
      cases hl
      refine ⟨hentries, fun host hhost => ?_⟩
      obtain ⟨a, ha, rfl⟩ := mem_map.1 hhost
      exact hfields a ha
    · rintro ⟨hentries, hfields⟩
      exact ⟨_, hlist, hentries, fun a ha => hfields _ (mem_map_of_mem ha)⟩
  · rw [hhosts] at hbad
    constructor
    · rintro ⟨l, hl, -⟩
      rw [initOblbAddresslistStr, show LoadBalance.scanText str (allocated str) 0 str _ = _ from hfault] at hl
      cases hl
    · rintro ⟨hentries, hfields⟩
      rcases hbad with hbad | ⟨host, hhost, hlong⟩
      · rw [length_nil, zero_add] at hbad
        exact absurd hentries (by unfold allocated at hbad; omega)
      · exact absurd (hfields host hhost) (by omega)

/-- **Address lists as text**: what was written is read back exactly when it is one address in brackets,
and a text is read without leaving the array or a field exactly when it has at most one host more than
commas, and none of 128 bytes or more. -/
theorem addresslistStr_spec (addrs : List WrittenAddress) (str : List UInt8) (hne : addrs ≠ [])
    (hok : ∀ a ∈ addrs, a.Ok) :
    (ReadsBack addrs ↔ ∃ a, addrs = [a] ∧ a.bracketed = true) ∧
      (Fits str ↔ (hostsOf false str).length ≤ str.count 44 + 1 ∧
        ∀ host ∈ hostsOf false str, host.length < hostSize) :=
  ⟨readsBack_iff hne hok, fits_iff str⟩

theorem letterA_ok (bracketed : Bool) : WrittenAddress.Ok ⟨bracketed, [97], 1⟩ := by
  refine ⟨show 1 ≤ 127 by decide, ?_, show 1 ≤ 65535 by decide⟩
  intro c hc
  obtain rfl := mem_singleton.1 hc
  exact ⟨by decide, by decide, by decide, fun _ => ⟨by decide, by decide⟩⟩

/-- The address `[a]:1` is read back, and the text `x[a]:1,b:2` is read with its two hosts. -/
theorem bracketed_address_read :
    ReadsBack [⟨true, [97], 1⟩] ∧ hostsOf false [120, 91, 97, 93, 58, 49, 44, 98, 58, 50] = [[97], [98]] ∧
      Fits [120, 91, 97, 93, 58, 49, 44, 98, 58, 50] := by
  have hok : ∀ a ∈ [(⟨true, [97], 1⟩ : WrittenAddress)], a.Ok := by
    intro a ha
    obtain rfl := mem_singleton.1 ha
    exact letterA_ok true
  obtain ⟨hround, hfits⟩ := addresslistStr_spec [⟨true, [97], 1⟩] [120, 91, 97, 93, 58, 49, 44, 98, 58, 50]
    (cons_ne_nil _ _) hok
  exact ⟨hround.2 ⟨_, rfl, rfl⟩, by decide, hfits.2 ⟨by decide, by decide⟩⟩

/-- **The address `a:1` is not read, and the text `[a]:1[b]:2` is stored past the end of the array.** -/
theorem plain_address_lost : ¬ReadsBack [⟨false, [97], 1⟩] ∧ ¬Fits [91, 97, 93, 58, 49, 91, 98, 93, 58, 50] := by
  refine ⟨not_readsBack_plain (letterA_ok false) rfl, ?_⟩
  rintro ⟨l, hl, -⟩
  have hfault : (initOblbAddresslistStr [91, 97, 93, 58, 49, 91, 98, 93, 58, 50] .rotation).toOption.isNone := by
    decide +kernel
  rw [hl] at hfault
  cases hfault

end ObConnector.LoadBalance
