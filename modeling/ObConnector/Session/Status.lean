/-
# ObConnector.Session.Status -- what an OK packet leaves of the status.

An OK packet stores its status before it looks at anything else, and nothing that follows it, neither the
message nor a list of changes, read to its end or found corrupted, touches it again. So the status
afterwards is the one in the packet (`maReadOkPacket_status`), for every packet that is read at all.
-/
import ObConnector.Session.Tracking

namespace ObConnector.Session

open Lib

/-! ## Items -/

/-- The status and the mode are what they were. -/
structure SameStatus (s s' : Mysql) : Prop where
  serverStatus : s'.serverStatus = s.serverStatus
  oracleMode : s'.oracleMode = s.oracleMode

variable {server : Server} {s t u : Mysql}

theorem SameStatus.refl (s : Mysql) : SameStatus s s := ⟨rfl, rfl⟩

theorem SameStatus.trans (h : SameStatus s t) (h' : SameStatus t u) : SameStatus s u :=
  ⟨h'.serverStatus.trans h.serverStatus, h'.oracleMode.trans h.oracleMode⟩

theorem sameStatus_setCharset (value : List UInt8) (s : Mysql) : SameStatus s (s.setCharset server value) := by
  unfold Mysql.setCharset
  split
  · split
    · exact ⟨rfl, rfl⟩
    · exact .refl s
  · exact .refl s

variable {name : List UInt8}

theorem sameStatus_setCapabilityOf {value : List UInt8} {good : Bool}
    (h : s.setCapabilityOf name value = .ok (t, good)) : SameStatus s t := by
  unfold Mysql.setCapabilityOf Mysql.setCapability at h
  split at h
  · split at h
    · cases h
      exact .refl s
    split at h
    · cases h
    cases h
    exact ⟨rfl, rfl⟩
  · cases h
    exact .refl s

theorem sameStatus_setNls {value : List UInt8} (h : s.setNls name value = .ok t) : SameStatus s t := by
  unfold Mysql.setNls at h
  split at h
  · obtain ⟨_, -, h⟩ := bind_eq_ok.mp h
    cases h
    exact ⟨rfl, rfl⟩
  split at h
  · obtain ⟨_, -, h⟩ := bind_eq_ok.mp h
    cases h
    exact ⟨rfl, rfl⟩
  split at h
  · obtain ⟨_, -, h⟩ := bind_eq_ok.mp h
    cases h
    exact ⟨rfl, rfl⟩
  cases h
  exact .refl s

theorem sameStatus_setVariable {value : List UInt8} {good : Bool}
    (h : s.setVariable server name value = .ok (t, good)) : SameStatus s t := by
  obtain ⟨⟨u, good'⟩, hcapability, h⟩ := bind_eq_ok.mp h
  have hcharset : SameStatus s (if nameMatches name "character_set_client" then s.setCharset server value else s) := by
    split
    · exact sameStatus_setCharset value s
    · exact .refl s
  have hfirst := hcharset.trans (sameStatus_setCapabilityOf hcapability)
  dsimp only at h
  split at h
  · obtain ⟨v, hnls, h⟩ := bind_eq_ok.mp h
    cases h
    exact hfirst.trans (sameStatus_setNls hnls)
  cases h
  exact hfirst

theorem sameStatus_keep (s : Mysql) (type : SessionType) (text : List UInt8) : SameStatus s (s.keep type text) := by
  unfold Mysql.keep
  split
  · exact ⟨rfl, rfl⟩
  · exact ⟨rfl, rfl⟩

variable {pkt : List UInt8} {pos : Nat}

theorem sameStatus_readVariable {stop : Nat} {next : Option Nat}
    (h : readVariable server pkt name pos stop s = .ok (t, next)) : SameStatus s t := by
  obtain ⟨text, -, h⟩ := bind_eq_ok.mp h
  cases text with
  | none =>
    cases h
    exact .refl s
  | some found =>
    obtain ⟨⟨u, good⟩, hset, h⟩ := bind_eq_ok.mp h
    cases h
    have hadd : SameStatus s (s.addState .systemVariables found.1) := ⟨rfl, rfl⟩
    exact hadd.trans (sameStatus_setVariable hset)

theorem sameStatus_readKnown {type : SessionType} {stop : Nat} {next : Option Nat}
    (h : readKnown server pkt type pos stop s = .ok (t, next)) : SameStatus s t := by
  obtain ⟨_, -, h⟩ := bind_eq_ok.mp h
  obtain ⟨_, -, h⟩ := bind_eq_ok.mp h
  obtain ⟨text, -, h⟩ := bind_eq_ok.mp h
  cases text with
  | none =>
    cases h
    exact .refl s
  | some found =>
    dsimp only at h
    split at h
    · exact (sameStatus_keep s _ _).trans (sameStatus_readVariable h)
    cases h
    exact sameStatus_keep s _ _

theorem sameStatus_readItem {stop : Nat} {next : Option Nat} (h : readItem server pkt pos stop s = .ok (t, next)) :
    SameStatus s t := by
  obtain ⟨code, -, h⟩ := bind_eq_ok.mp h
  dsimp only at h
  split at h
  · exact sameStatus_readKnown h
  obtain ⟨text, -, h⟩ := bind_eq_ok.mp h
  cases text with
  | none =>
    cases h
    exact .refl s
  | some found =>
    cases h
    exact .refl s

theorem sameStatus_readItems {stop fuel : Nat} {good : Bool}
    (h : readItems server pkt stop fuel pos s = .ok (t, good)) : SameStatus s t := by
  induction fuel generalizing pos s with
  | zero => cases h
  | succ fuel ih =>
    unfold readItems at h
    split at h
    · obtain ⟨⟨u, next⟩, hitem, h⟩ := bind_eq_ok.mp h
      cases next with
      | none =>
        cases h
        exact sameStatus_readItem hitem
      | some pos => exact (sameStatus_readItem hitem).trans (ih h)
    · cases h
      exact .refl _

/-! ## The packet -/

theorem sameStatus_readChanges {ret : Int} (h : readChanges server pkt pos s = .ok (t, ret)) : SameStatus s t := by
  unfold readChanges at h
  split at h
  · cases h
    exact .refl s
  split at h
  · cases h
    exact ⟨rfl, rfl⟩
  obtain ⟨⟨total, pos'⟩, -, h⟩ := bind_eq_ok.mp h
  dsimp only at h
  split at h
  · cases h
  split at h
  · cases h
    exact ⟨rfl, rfl⟩
  obtain ⟨⟨u, good⟩, hitems, h⟩ := bind_eq_ok.mp h
  have hall := sameStatus_readItems hitems
  -- the lists are turned round or cleared, and neither is the status
  cases good with
  | true =>
    cases h
    exact ⟨hall.serverStatus, hall.oracleMode⟩
  | false =>
    cases h
    exact ⟨hall.serverStatus, hall.oracleMode⟩

theorem sameStatus_setInfo (s : Mysql) (len : Nat) (text : List UInt8) : SameStatus s (s.setInfo len text) := by
  unfold Mysql.setInfo
  split
  · exact .refl s
  · exact ⟨rfl, rfl⟩

theorem sameStatus_readInfo {ret : Int} (h : readInfo server pkt pos s = .ok (t, ret)) : SameStatus s t := by
  obtain ⟨⟨len, pos'⟩, -, h⟩ := bind_eq_ok.mp h
  have hset := sameStatus_setInfo s len (sliceAt pkt pos' len)
  have hclear : SameStatus s (s.setInfo len (sliceAt pkt pos' len)).clearState :=
    ⟨hset.serverStatus, hset.oracleMode⟩
  dsimp only at h
  split at h
  · cases h
  split at h
  · cases h
    exact hclear
  split at h
  · exact hclear.trans (sameStatus_readChanges h)
  cases h
  exact hset

/-- **The status that an OK packet leaves is the one in it.** -/
theorem maReadOkPacket_status (p : OkPacket) {ret : Int} (h : maReadOkPacket server p.bytes s = .ok (t, ret)) :
    SameStatus (s.count p) t := by
  obtain ⟨pos, -, hread⟩ := @maReadOkPacket_counters server p s
  rw [hread] at h
  split at h
  · exact sameStatus_readInfo h
  cases h
  split
  · exact ⟨rfl, rfl⟩
  · exact .refl _

end ObConnector.Session
