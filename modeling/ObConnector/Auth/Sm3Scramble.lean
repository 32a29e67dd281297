/-
# ObConnector.Auth.Sm3Scramble -- the reply of the SM3 authentication plugin.

The server stores the hash of the hash of the password and sends a salt. The client replies with the
first hash, masked by the hash of the stored value and the salt, so that the server can take the mask
off again, hash what remains and compare that with what it stores (`Verifies`). `ma_sm3_scramble` in
`ob_sm3_pw.c` computes the reply.

The plugin follows the one for SHA-256 step by step, but its second step hashes `MA_HASH_SM3` bytes of
the first digest: the number of the algorithm, eight, and not the size of the digest. The mask is then
the one the server expects exactly when the hash does not see the difference (`sm3_reply_verifies`).
-/
import ObConnector.Lib.Buffer

namespace ObConnector.Auth

open Lib List

/-! ## the plugin -/

/-- `MA_HASH_SM3`: the number of the algorithm. -/
def maHashSm3 : Nat := 8

/-- `MA_SM3_HASH_SIZE`: the size of its digests. -/
def maSm3HashSize : Nat := 32

/-- A hash with digests of this size. -/
structure Hash where
  digest : List UInt8 → List UInt8
  length_digest : ∀ m, (digest m).length = maSm3HashSize

/-- `ma_hash_input`: the context has taken `ctx` and takes `len` bytes of the buffer. -/
def maHashInput (ctx buffer : List UInt8) (len : Nat) : Except Fault (List UInt8) := do
  let bytes ← readAt buffer 0 len
  return ctx ++ bytes

/-- The bytes of two strings combined with exclusive or. -/
def maskedBy (a b : List UInt8) : List UInt8 := List.zipWith (· ^^^ ·) a b

/-- `ma_sm3_scramble`: no reply when one of the lengths is zero. -/
def maSm3Scramble (hash : Hash) (scrambleLen : Nat) (source salt : List UInt8) : Except Fault (Option (List UInt8)) := do
  if scrambleLen = 0 ∨ source.length = 0 ∨ salt.length = 0 then return none
  let ctx ← maHashInput [] source source.length
  let digest1 := hash.digest ctx
  let ctx ← maHashInput [] digest1 maHashSm3
  let digest2 := hash.digest ctx
  let ctx ← maHashInput [] digest2 maSm3HashSize
  let ctx ← maHashInput ctx salt salt.length
  let newScramble := hash.digest ctx
  let left ← readAt digest1 0 scrambleLen
  let right ← readAt newScramble 0 scrambleLen
  return some (maskedBy left right)

/-- The server's check of a reply: it has `stored` and the salt. -/
def Verifies (hash : Hash) (stored salt reply : List UInt8) : Prop :=
  hash.digest (maskedBy reply (hash.digest (stored ++ salt))) = stored

/-! ## masks -/

theorem length_maskedBy {a b : List UInt8} (h : a.length = b.length) : (maskedBy a b).length = a.length := by
  rw [maskedBy, length_zipWith, h, Nat.min_self]

/-- A mask taken off again. -/
theorem maskedBy_cancel {a b : List UInt8} (h : a.length = b.length) : maskedBy (maskedBy a b) b = a := by
  apply ext_getElem
  · rw [length_maskedBy (by rw [length_maskedBy h, h]), length_maskedBy h]
  · intro i _ hi
    simp only [maskedBy, getElem_zipWith, UInt8.xor_assoc, UInt8.xor_self, UInt8.xor_zero]

/-- Only the mask itself takes it off. -/
theorem eq_mask_of_maskedBy {a b c : List UInt8} (hab : a.length = b.length) (hac : a.length = c.length)
    (h : maskedBy (maskedBy a b) c = a) : b = c := by
  have hmasked : maskedBy a b = maskedBy a c := by
    have hlen : (maskedBy a b).length = c.length := by rw [length_maskedBy hab, hac]
    rw [← maskedBy_cancel hlen, h]
  apply ext_getElem (hab.symm.trans hac)
  intro i hib hic
  have hia : i < a.length := by omega
  have hbyte : (maskedBy a b)[i]? = (maskedBy a c)[i]? := by rw [hmasked]
  simp only [maskedBy, List.getElem?_zipWith, List.getElem?_eq_getElem hia, List.getElem?_eq_getElem hib,
    List.getElem?_eq_getElem hic, Option.some.injEq] at hbyte
  exact (UInt8.xor_right_inj _).mp hbyte

/-! ## the reply -/

theorem maHashInput_all (ctx buffer : List UInt8) : maHashInput ctx buffer buffer.length = .ok (ctx ++ buffer) := by
  rw [maHashInput, readAt_inside (by omega) (by omega), sliceAt]
  simp

theorem maHashInput_front (ctx : List UInt8) {buffer : List UInt8} {len : Nat} (h : len ≤ buffer.length) :
    maHashInput ctx buffer len = .ok (ctx ++ buffer.take len) := by
  rw [maHashInput, readAt_inside (by omega) (by omega), sliceAt]
  simp

theorem readAt_digest (hash : Hash) (m : List UInt8) :
    readAt (hash.digest m) 0 maSm3HashSize = .ok (hash.digest m) := by
  rw [readAt_inside (by omega) (by rw [hash.length_digest]; omega), sliceAt, ← hash.length_digest m]
  simp

/-- **What the plugin replies**: the mask is made from the first eight bytes of the first digest. -/
theorem maSm3Scramble_eq (hash : Hash) {source salt : List UInt8} (hsource : source ≠ []) (hsalt : salt ≠ []) :
    maSm3Scramble hash maSm3HashSize source salt = .ok (some (maskedBy (hash.digest source)
        (hash.digest (hash.digest ((hash.digest source).take maHashSm3) ++ salt)))) := by
  have hnonzero : ¬(maSm3HashSize = 0 ∨ source.length = 0 ∨ salt.length = 0) := by
    simp [maSm3HashSize, hsource, hsalt]
  have hfront : maHashSm3 ≤ (hash.digest source).length := by rw [hash.length_digest]; decide
  have hsecond := maHashInput_all [] (hash.digest ((hash.digest source).take maHashSm3))
  rw [hash.length_digest] at hsecond
  simp only [maSm3Scramble, if_neg hnonzero, maHashInput_all, nil_append, ok_bind, maHashInput_front [] hfront]
  rw [hsecond, ok_bind, readAt_digest, readAt_digest]
  rfl

theorem maSm3Scramble_eq_some {hash : Hash} {source salt reply : List UInt8}
    (h : maSm3Scramble hash maSm3HashSize source salt = .ok (some reply)) :
    reply = maskedBy (hash.digest source)
      (hash.digest (hash.digest ((hash.digest source).take maHashSm3) ++ salt)) := by
  by_cases hempty : source = [] ∨ salt = []
  · -- an empty password or salt has no reply
    have hzero : maSm3HashSize = 0 ∨ source.length = 0 ∨ salt.length = 0 := by
      rcases hempty with rfl | rfl
      · exact .inr (.inl rfl)
      · exact .inr (.inr rfl)
    rw [maSm3Scramble, if_pos hzero] at h
    cases h
  · rw [not_or] at hempty
    rw [maSm3Scramble_eq hash hempty.1 hempty.2] at h
    cases h
    rfl

/-- No two digests have the same hash, by themselves or in front of the salt. -/
structure CollisionFree (hash : Hash) (salt : List UInt8) : Prop where
  digests : ∀ a b : List UInt8, a.length = maSm3HashSize → b.length = maSm3HashSize →
    hash.digest a = hash.digest b → a = b
  salted : ∀ a b : List UInt8, a.length = maSm3HashSize → b.length = maSm3HashSize →
    hash.digest (a ++ salt) = hash.digest (b ++ salt) → a = b

/-- **The server can check the reply when the hash of the first digest is the hash of its first eight
bytes**, and for a hash without collisions only then. -/
theorem sm3_reply_verifies (hash : Hash) (password salt reply : List UInt8)
    (h : maSm3Scramble hash maSm3HashSize password salt = .ok (some reply)) :
    (hash.digest ((hash.digest password).take maHashSm3) = hash.digest (hash.digest password) →
      Verifies hash (hash.digest (hash.digest password)) salt reply) ∧
    (CollisionFree hash salt → Verifies hash (hash.digest (hash.digest password)) salt reply →
      hash.digest ((hash.digest password).take maHashSm3) = hash.digest (hash.digest password)) := by
  obtain rfl := maSm3Scramble_eq_some h
  have hlen : ∀ m m', (hash.digest m).length = (hash.digest m').length := by
    intro m m'
    rw [hash.length_digest, hash.length_digest]
  constructor
  · intro hsame
    rw [Verifies, hsame, maskedBy_cancel (hlen _ _)]
  · intro hfree hverifies
    -- what the server hashes is the first digest, so that it took off the mask it expects
    have hfirst := hfree.digests _ _ ?_ (hash.length_digest password) hverifies
    · exact hfree.salted _ _ (hash.length_digest _) (hash.length_digest _)
        (eq_mask_of_maskedBy (hlen _ _) (hlen _ _) hfirst)
    · rw [length_maskedBy, length_maskedBy (hlen _ _), hash.length_digest]
      rw [length_maskedBy (hlen _ _), hlen]

/-- A hash without collisions among the strings the plugin hashes: the string itself, filled up with
zeros or cut to the size of a digest. -/
def padHash : Hash where
  digest m := (m ++ List.replicate maSm3HashSize 0).take maSm3HashSize
  length_digest m := by
    rw [length_take, length_append, length_replicate]
    omega

theorem padHash_digest_append {a : List UInt8} (h : a.length = maSm3HashSize) (b : List UInt8) :
    padHash.digest (a ++ b) = a := by
  show List.take maSm3HashSize (a ++ b ++ _) = a
  rw [append_assoc, ← h, take_left]

theorem padHash_collisionFree (salt : List UInt8) : CollisionFree padHash salt where
  digests a b ha hb h := by
    have hdigest := padHash_digest_append ha []
    rw [append_nil, h] at hdigest
    have hdigest' := padHash_digest_append hb []
    rw [append_nil] at hdigest'
    exact hdigest.symm.trans hdigest'
  salted a b ha hb h := by
    rw [← padHash_digest_append ha salt, h, padHash_digest_append hb]

/-- A password of eight bytes passes with this hash, and the hash is free of collisions. -/
theorem sm3_reply_verifies_eight : Verifies padHash (padHash.digest (padHash.digest [1, 2, 3, 4, 5, 6, 7, 8])) [1]
        (maskedBy (padHash.digest [1, 2, 3, 4, 5, 6, 7, 8]) (padHash.digest [1, 2, 3, 4, 5, 6, 7, 8])) ∧
      CollisionFree padHash [1] :=
  have hreply : maSm3Scramble padHash maSm3HashSize [1, 2, 3, 4, 5, 6, 7, 8] [1] =
      .ok (some (maskedBy (padHash.digest [1, 2, 3, 4, 5, 6, 7, 8]) (padHash.digest [1, 2, 3, 4, 5, 6, 7, 8]))) := by
    decide +kernel
  ⟨(sm3_reply_verifies padHash _ _ _ hreply).1 (by decide +kernel), padHash_collisionFree [1]⟩

/-- A password of nine bytes does not: the reply is made, and the server refuses it. -/
theorem sm3_reply_refused : maSm3Scramble padHash maSm3HashSize [1, 2, 3, 4, 5, 6, 7, 8, 9] [1] =
        .ok (some (List.replicate 8 0 ++ [9] ++ List.replicate 23 0)) ∧
      ¬Verifies padHash (padHash.digest (padHash.digest [1, 2, 3, 4, 5, 6, 7, 8, 9])) [1]
        (List.replicate 8 0 ++ [9] ++ List.replicate 23 0) := by
  unfold Verifies
  decide +kernel

end ObConnector.Auth
