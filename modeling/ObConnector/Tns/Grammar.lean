/-
# ObConnector.Tns.Grammar -- the well-formed descriptions.

A node of a description is a sequence of pairs `(KEY=value)`, at least one, and what it builds is changed
by each of them. `Step` is one such pair, given the values that the keys of the node may have, and a node
that is read is a chain of steps. The values are given by relations between what is built and the text in
front of which it is (`Place`), before and after. They know nothing of the tokenizer but the tokens of the
text, so they can be compared with the building functions in both directions.

The keys and values that are admitted are a parameter: all of them, or only those that are shorter than
`tns_key`, which the tokenizer takes wherever its buffer ends.
-/
import Mathlib.Logic.Relation
import ObConnector.Tns.Options

namespace ObConnector.Tns

open Lib
open Relation (ReflTransGen TransGen)

/-! ## Pairs -/

/-- The kind of a key. -/
def keyTypeOf (k : List UInt8) : KeyType :=
  (tnsKeyArray k.length).foldl
    (fun found entry => if strncasecmpSame k (ascii entry.1) k.length then entry.2 else found) .errorKey

theorem HoldsKey.getKeyType {p : Params} {k : List UInt8} (h : HoldsKey p k) : getKeyType p = keyTypeOf k := by
  obtain ⟨old, hkey⟩ := h.bytes
  rw [Tns.getKeyType, h.len, hkey]
  congr 1
  funext found entry
  rw [strncasecmpSame, strncasecmpSame, strnSame_append]

/-- The keys and values with fewer bytes than `tns_key` has. -/
def ShortKey (k : List UInt8) : Prop := k.length < tnsKeySize

/-- All keys and values. -/
def AnyKey (_ : List UInt8) : Prop := True

/-- `(KEY=` with a known key, and the text behind it. -/
def Opens (K : List UInt8 → Prop) (keyType : KeyType) (text rest : List UInt8) : Prop :=
  ∃ k t₁ t₂, Sign .leftParentheses text t₁ ∧ Key k t₁ t₂ ∧ K k ∧ keyTypeOf k = keyType ∧ keyType ≠ .errorKey ∧
    Sign .equalSign t₂ rest

/-- The opening of a pair is one thing. -/
theorem Opens.eq {K : List UInt8 → Prop} {keyType : KeyType} {text rest : List UInt8} (h : Opens K keyType text rest) :
    keyType = keyTypeOf (scan keyStep ⟨false, []⟩ (skipBlanks (skipBlanks text).tail)).1.stored ∧
      rest = (skipBlanks (scan keyStep ⟨false, []⟩ (skipBlanks (skipBlanks text).tail)).2).tail := by
  obtain ⟨k, t₁, t₂, hleft, hkey, -, hkeyType, -, hequal⟩ := h
  rw [← hleft.2, hkey.stored, hkey.rest_eq]
  exact ⟨hkeyType.symm, hequal.2⟩

/-- Something that is built, and the text in front of which it is. -/
abbrev Place (β : Type) := β × List UInt8

/-- What a value may be, for each key of a node. -/
abbrev Value (β : Type) := KeyType → Place β → Place β → Prop

/-- A pair of a node. -/
def Step {β : Type} (K : List UInt8 → Prop) (value : Value β) (x y : Place β) : Prop :=
  ∃ keyType t₁ t₂, Opens K keyType x.2 t₁ ∧ value keyType (x.1, t₁) (y.1, t₂) ∧ Sign .rightParentheses t₂ y.2

/-! ## Values -/

section Values

variable {β γ : Type} (K : List UInt8 → Prop)

/-- One of some words. -/
def WordRead (words : List (String × (β → β))) (x y : Place β) : Prop :=
  ∃ v w, Key v x.2 y.2 ∧ K v ∧ (words.find? fun w => Begins v w.1) = some w ∧ y.1 = w.2 x.1

/-- A number. -/
def NumberRead (store : Nat → β → β) (x y : Place β) : Prop :=
  ∃ v, Key v x.2 y.2 ∧ K v ∧ (strtoll v).2 = v.length ∧ y.1 = store ((strtoll v).1 % 2 ^ 64).toNat x.1

/-- A text; one that is too long is passed over. -/
def TextRead (limit : Nat) (store : (Text → Text) → β → β) (x y : Place β) : Prop :=
  ∃ v, Key v x.2 y.2 ∧ K v ∧ y.1 = if v.length ≤ limit then
    store (fun t => ⟨overwrite t.bytes (strncpy v v.length), v.length⟩) x.1 else x.1

/-- A node that starts from `init` and becomes a part of its parent. -/
def NodeRead (value : Value γ) (init : β → γ) (keep : γ → β → β) (x y : Place β) : Prop :=
  ∃ c, TransGen (Step K value) (init x.1, x.2) (c, y.2) ∧ y.1 = keep c x.1

end Values

def removeStrategyRead (K : List UInt8 → Prop) : Value BlacklistConf
  | .name => WordRead K [("TIMEOUT", fun black => { black with removeStrategy := .timeout })]
  | .timeout => NumberRead K fun v black => { black with removeTimeout := v }
  | _ => fun _ _ => False

def appendStrategyRead (K : List UInt8 → Prop) : Value BlacklistConf
  | .name => WordRead K [("RETRYDURATION", fun black => { black with appendStrategy := .retryDuration }),
      ("NORMAL", fun black => { black with appendStrategy := .normal })]
  | .retryTimes => NumberRead K fun v black => { black with retryTimes := v }
  | .duration => NumberRead K fun v black => { black with duration := v }
  | _ => fun _ _ => False

def blacklistConfRead (K : List UInt8 → Prop) : Value BlacklistConf
  | .removeStrategy => NodeRead K (removeStrategyRead K) id fun black _ => black
  | .appendStrategy => NodeRead K (appendStrategyRead K) id fun black _ => black
  | _ => fun _ _ => False

def addressRead (K : List UInt8 → Prop) : Value Address
  | .protocol => fun x y => TextRead K 6 (fun f a => { a with protocol := f a.protocol }) x y ∧
      knownProtocol y.1 = true
  | .host => TextRead K 256 fun f a => { a with host := f a.host }
  | .port => NumberRead K fun v a => { a with port := v }
  | .weight => NumberRead K fun v a => { a with weight := v }
  | _ => fun _ _ => False

def addressListRead (K : List UInt8 → Prop) : Value AddressList
  | .address => NodeRead K (addressRead K) (fun _ => .init) fun a list => { list with address := list.address ++ [a] }
  | .oblbStrategy => WordRead K (strategyWords fun o list => { list with oblbStrategy := o })
  | .oblb => WordRead K (switchWords fun on list => { list with oblb := on })
  | _ => fun _ _ => False

def connectDataRead (K : List UInt8 → Prop) : Value ConnectData
  | .serviceName => TextRead K 256 fun f data => { data with serviceName := f data.serviceName }
  | .sid => TextRead K 256 fun f data => { data with serviceName := f data.serviceName }
  | .extraInfo => TextRead K 256 fun f data => { data with userExtraInfo := f data.userExtraInfo }
  | .obMode => NumberRead K fun v data => { data with obMode := v }
  | .useDefaultSid => NumberRead K fun v data => { data with useDefaultSid := v }
  | .sessionVariable => TextRead K 256 fun f data => { data with sessionVariable := f data.sessionVariable }
  | .obEnableSsl => NumberRead K fun v data => { data with obEnableSsl := v }
  | _ => fun _ _ => False

/-- A description has at most one connect data; an address outside a list goes to the first list. -/
def descriptionRead (K : List UInt8 → Prop) : Value Description
  | .oblb => WordRead K (switchWords fun on des => { des with oblb := on })
  | .oblbRetryAllDowns => NumberRead K fun v des => { des with retryAllDowns := v }
  | .oblbRetryTimeout => NumberRead K fun v des => { des with retryTimeout := v }
  | .connectTimeout => NumberRead K fun v des => { des with connectTimout := v }
  | .readTimeout => NumberRead K fun v des => { des with readTimout := v }
  | .writeTimeout => NumberRead K fun v des => { des with writeTimout := v }
  | .oblbStrategy => WordRead K (strategyWords fun o des => { des with oblbStrategy := o })
  | .oblbGroupStrategy => WordRead K [("ROTATION", fun des => { des with oblbGroupStrategy := .groupRotation })]
  | .oblbBlacklist =>
    NodeRead K (blacklistConfRead K) Description.blackListConf fun conf des => { des with blackListConf := conf }
  | .addressList =>
    NodeRead K (addressListRead K) (fun _ => .init) fun list des => { des with addressList := des.addressList ++ [list] }
  | .connectData => fun x y => x.1.connectData = none ∧
      NodeRead K (connectDataRead K) (fun _ => .init) (fun data des => { des with connectData := some data }) x y
  | .address =>
    NodeRead K (addressRead K) (fun _ => .init) fun a des => { des with
      addressList := des.addressList.set 0
        { des.addressList.headD .init with address := (des.addressList.headD .init).address ++ [a] } }
  | _ => fun _ _ => False

def serviceRead (K : List UInt8 → Prop) : Value Service
  | .description =>
    NodeRead K (descriptionRead K) (fun _ => .init) fun des service =>
      { service with description := service.description ++ [des] }
  | _ => fun _ _ => False

/-- A description string that is read as `des`, with nothing behind it. -/
def DescribedAs (K : List UInt8 → Prop) (text : List UInt8) (des : Description) : Prop :=
  ∃ t₁ t₂ t₃, Opens K .description text t₁ ∧
    TransGen (Step K (descriptionRead K)) (Description.init, t₁) (des, t₂) ∧
    Sign .rightParentheses t₂ t₃ ∧ tokenAt t₃ = none

end ObConnector.Tns
