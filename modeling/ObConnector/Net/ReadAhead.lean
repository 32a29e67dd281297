/-
# ObConnector.Net.ReadAhead -- the read-ahead cache in front of the transport.

`ma_pvio_cache_read` (`ma_pvio.c`) serves a request from the cache while the cache holds anything,
hands a large request straight to the transport, and otherwise reads up to 16384 bytes into the
cache and gives out the first of them. A read that is given out whole leaves `cache_size` and
`cache_pos` as they were: both then still describe the last filling that was kept.

The transport is a stream of bytes with a rule for how many of the requested bytes a read returns
(`Transport`). `Drains` is the invariant: what was given out, and what the cache holds behind
`cache_pos`, is what the transport has delivered so far. Each call keeps it (`cacheRead_drains`),
hence every run of calls does (`readAll_drains`).
-/
import ObConnector.Lib.Buffer
import ObConnector.Lib.Mem

namespace ObConnector.Net.ReadAhead

open Lib List

/-! ## The transport -/

/-- How many bytes the `k`-th read of the transport returns when `n` are asked for. -/
structure ShortReads where
  count : Nat → Nat → Nat
  some_byte : ∀ k n, 0 < n → 1 ≤ count k n
  no_more : ∀ k n, count k n ≤ n

/-- The transport below `ma_pvio_read`: the bytes it will deliver, how many of them it has delivered
and in how many reads. -/
structure Transport where
  stream : Nat → UInt8
  shorts : ShortReads
  delivered : Nat
  reads : Nat

/-- The transport before the first read. -/
def Transport.start (stream : Nat → UInt8) (shorts : ShortReads) : Transport := ⟨stream, shorts, 0, 0⟩

/-- `ma_pvio_read` for `length` bytes: the bytes that arrive. -/
def maPvioRead (t : Transport) (length : Nat) : List UInt8 × Transport :=
  let n := t.shorts.count t.reads length
  (loadAt t.stream t.delivered n, { t with delivered := t.delivered + n, reads := t.reads + 1 })

/-- The bytes the transport has delivered so far. -/
def Transport.sofar (t : Transport) : List UInt8 := loadAt t.stream 0 t.delivered

/-- A read delivers the next bytes of the stream. -/
theorem maPvioRead_sofar (t : Transport) (length : Nat) :
    (maPvioRead t length).2.sofar = t.sofar ++ (maPvioRead t length).1 := by
  show loadAt t.stream 0 (t.delivered + _) = _
  rw [loadAt_add, zero_add]
  rfl

theorem maPvioRead_some (t : Transport) {length : Nat} (h : 0 < length) :
    1 ≤ (maPvioRead t length).1.length ∧ (maPvioRead t length).1.length ≤ length := by
  simp only [maPvioRead, length_loadAt]
  exact ⟨t.shorts.some_byte _ _ h, t.shorts.no_more _ _⟩

/-! ## The cache -/

/-- `PVIO_READ_AHEAD_CACHE_SIZE`. -/
def readAheadCacheSize : Nat := 16384

/-- `PVIO_READ_AHEAD_CACHE_MIN_SIZE`. -/
def readAheadCacheMinSize : Nat := 2048

/-- The cache of a `MARIADB_PVIO`: the region that `ma_pvio_init` allocates, if there is one, and the
two fields that say which of its bytes are still to be given out. `cachePos` is the distance of
`cache_pos` from `cache`. -/
structure Pvio where
  cache : Option (List UInt8)
  cacheSize : Nat
  cachePos : Nat

/-- The cache as `ma_pvio_init` leaves it. -/
def maPvioInit : Pvio := ⟨some (List.replicate readAheadCacheSize 0), 0, 0⟩

/-- The cast of a `size_t` to `ssize_t`. -/
def ssizeT (n : Nat) : Int := Int.bmod n (2 ^ 64)

/-- The cast of an `ssize_t` to `size_t`, as the length of a `memcpy`. -/
def sizeT (r : Int) : Nat := (r % 2 ^ 64).toNat

/-- `memcpy` of `bs` to the caller's buffer of `length` bytes. -/
def toCaller (length : Nat) (bs : List UInt8) : Except Fault (List UInt8) :=
  if bs.length ≤ length then .ok bs else .error .writeOutside

/-- `ma_pvio_cache_read` for `length` bytes: the bytes it puts into the caller's buffer. -/
def maPvioCacheRead (p : Pvio) (t : Transport) (length : Nat) :
    Except Fault (List UInt8 × Pvio × Transport) :=
  match p.cache with
  | none =>
    let (bs, t') := maPvioRead t length
    .ok (bs, p, t')
  | some cache =>
    if p.cacheSize > p.cachePos then do
      let remaining : Int := p.cacheSize - p.cachePos
      let r := min (ssizeT length) remaining
      let bs ← readAt cache p.cachePos (sizeT r)
      let out ← toCaller length bs
      .ok (out, { p with cachePos := p.cachePos + sizeT r }, t)
    else if length ≥ readAheadCacheMinSize then
      let (bs, t') := maPvioRead t length
      .ok (bs, p, t')
    else do
      let (got, t') := maPvioRead t readAheadCacheSize
      let cache' ← writeAt cache 0 got
      -- what does not fit the request stays behind `cache_pos`; otherwise the two fields are stale
      let kept := length < got.length
      let r := if kept then length else got.length
      let bs ← readAt cache' 0 r
      let out ← toCaller length bs
      .ok (out, ⟨some cache', if kept then got.length else p.cacheSize, if kept then length else p.cachePos⟩, t')

/-- A request: a positive number of bytes, for a buffer that exists, and so one of at most
`PTRDIFF_MAX` bytes. -/
structure Request where
  length : Nat
  positive : 0 < length
  object : length < 2 ^ 63

/-- Successive calls of `ma_pvio_cache_read`: what each of them gives. -/
def readAll (p : Pvio) (t : Transport) : List Request → Except Fault (List (List UInt8) × Pvio × Transport)
  | [] => .ok ([], p, t)
  | q :: qs => do
    let (out, p', t') ← maPvioCacheRead p t q.length
    let (outs, p'', t'') ← readAll p' t' qs
    .ok (out :: outs, p'', t'')

/-! ## One call -/

theorem ssizeT_eq {n : Nat} (h : n < 2 ^ 63) : ssizeT n = n := by
  apply Int.bmod_eq_of_le
  · omega
  · omega

theorem sizeT_natCast {n : Nat} (h : n < 2 ^ 64) : sizeT (n : Int) = n := by
  rw [sizeT]
  omega

/-- The bytes the cache still has to give out. -/
def Pvio.unread (p : Pvio) : List UInt8 :=
  match p.cache with
  | none => []
  | some cache => sliceAt cache p.cachePos (p.cacheSize - p.cachePos)

/-- `gave` and what the cache still holds are what the transport has delivered, and `cache_pos` lies
in the part of the cache that was filled. -/
structure Drains (stream : Nat → UInt8) (p : Pvio) (t : Transport) (gave : List UInt8) : Prop where
  source : t.stream = stream
  region : ∀ cache, p.cache = some cache → cache.length = readAheadCacheSize
  inside : p.cachePos ≤ p.cacheSize
  filled : p.cacheSize ≤ readAheadCacheSize
  whole : t.sofar = gave ++ p.unread

variable {p : Pvio}

/-- A cache that is given out holds nothing more. -/
theorem unread_drained (h : ¬p.cacheSize > p.cachePos) : p.unread = [] := by
  have hz : p.cacheSize - p.cachePos = 0 := by omega
  unfold Pvio.unread
  cases p.cache with
  | none => rfl
  | some cache => simp only [hz, sliceAt, take_zero]

variable {stream : Nat → UInt8} {t : Transport}

variable {gave : List UInt8}

/-- Reading past the cache keeps the invariant when the cache is drained. -/
theorem drains_direct (h : Drains stream p t gave) (hd : p.unread = []) (length : Nat) :
    Drains stream p (maPvioRead t length).2 (gave ++ (maPvioRead t length).1) where
  source := h.source
  region := h.region
  inside := h.inside
  filled := h.filled
  whole := by
    rw [maPvioRead_sofar, h.whole, hd, append_nil, append_nil]

/-- The first bytes of a slice, and the slice behind them. -/
theorem sliceAt_split (b : List UInt8) {off size r : Nat} (hr : off + r ≤ size) :
    sliceAt b off (size - off) = sliceAt b off r ++ sliceAt b ((off + r : Nat) : Int) (size - (off + r)) := by
  have hn : size - off = r + (size - (off + r)) := by omega
  simp only [sliceAt, Int.toNat_natCast]
  rw [hn, take_add, drop_drop]

theorem length_sliceAt {b : List UInt8} {off n : Nat} (h : off + n ≤ b.length) : (sliceAt b off n).length = n := by
  simp only [sliceAt, length_take, length_drop]
  omega

/-- A request served from the cache. -/
theorem cacheRead_cached {cache : List UInt8} (h : Drains stream p t gave) (hc : p.cache = some cache)
    (hm : p.cacheSize > p.cachePos) (q : Request) : ∃ out p', maPvioCacheRead p t q.length = .ok (out, p', t) ∧
      (1 ≤ out.length ∧ out.length ≤ q.length) ∧ Drains stream p' t (gave ++ out) := by
  have hroom : p.cacheSize ≤ cache.length := by
    rw [h.region cache hc]
    exact h.filled
  have hpos := q.positive
  obtain ⟨r, hr⟩ : ∃ r, r = min q.length (p.cacheSize - p.cachePos) := ⟨_, rfl⟩
  have hmin : min (ssizeT q.length) (p.cacheSize - p.cachePos) = r := by
    rw [ssizeT_eq q.object]
    omega
  have hr64 : sizeT r = r := by
    have hobj := q.object
    exact sizeT_natCast (by omega)
  have hread : readAt cache p.cachePos r = .ok (sliceAt cache p.cachePos r) :=
    readAt_inside (by omega) (by omega)
  have hslice := @length_sliceAt cache p.cachePos r (by omega)
  refine ⟨sliceAt cache p.cachePos r, { p with cachePos := p.cachePos + r }, ?_, ?_, ?_⟩
  · simp only [maPvioCacheRead, hc, if_pos hm, hmin, hr64, hread, ok_bind, toCaller]
    rw [if_pos (by omega)]
    rfl
  · omega
  · refine ⟨h.source, h.region, ?_, h.filled, ?_⟩
    · show p.cachePos + r ≤ p.cacheSize
      omega
    · have hsplit := @sliceAt_split cache p.cachePos p.cacheSize r (by omega)
      rw [h.whole, append_assoc]
      simp only [Pvio.unread, hc]
      rw [hsplit]

/-- A request that fills the cache. -/
theorem cacheRead_fill {cache : List UInt8} (h : Drains stream p t gave) (hc : p.cache = some cache)
    (hm : ¬p.cacheSize > p.cachePos) (q : Request) (hsmall : ¬q.length ≥ readAheadCacheMinSize) :
    ∃ out p' t', maPvioCacheRead p t q.length = .ok (out, p', t') ∧
      (1 ≤ out.length ∧ out.length ≤ q.length) ∧ Drains stream p' t' (gave ++ out) := by
  have hlen := h.region cache hc
  have hpos := q.positive
  obtain ⟨hsome, hmost⟩ := @maPvioRead_some t readAheadCacheSize (by decide)
  have hsofar := maPvioRead_sofar t readAheadCacheSize
  have hsource : (maPvioRead t readAheadCacheSize).2.stream = stream := h.source
  rw [h.whole, unread_drained hm, append_nil] at hsofar
  rcases hgot : maPvioRead t readAheadCacheSize with ⟨got, t'⟩
  rw [hgot] at hsome hmost hsofar hsource
  dsimp only at hsome hmost
  have hwrite : writeAt cache 0 got = .ok (got ++ cache.drop got.length) := by
    rw [writeAt_inside (by omega), take_zero, nil_append, zero_add]
  have hlen' : (got ++ cache.drop got.length).length = readAheadCacheSize := by
    simp only [length_append, length_drop]
    omega
  obtain ⟨r, hr⟩ : ∃ r, r = if q.length < got.length then q.length else got.length := ⟨_, rfl⟩
  have hrq : r ≤ q.length ∧ r ≤ got.length ∧ 1 ≤ r := by
    rw [hr]
    split <;> omega
  have hfirst : sliceAt (got ++ cache.drop got.length) 0 r = got.take r := by
    exact take_append_of_le_length hrq.2.1
  have hread : readAt (got ++ cache.drop got.length) 0 r = .ok (got.take r) := by
    rw [← hfirst]
    exact readAt_inside (by omega) (by omega)
  have htake : (got.take r).length = r := by
    rw [length_take]
    omega
  refine ⟨got.take r, ⟨some (got ++ cache.drop got.length),
    if q.length < got.length then got.length else p.cacheSize,
    if q.length < got.length then q.length else p.cachePos⟩, t', ?_, ?_, ?_⟩
  · simp only [maPvioCacheRead, hc, if_neg hm, if_neg hsmall, hgot, hwrite, ok_bind, ← hr, hread, toCaller, htake]
    rw [if_pos hrq.1]
    rfl
  · omega
  · refine ⟨hsource, ?_, ?_, ?_, ?_⟩
    · intro c hcache
      cases hcache
      exact hlen'
    · have hin := h.inside
      dsimp only
      split <;> omega
    · have hfill := h.filled
      split <;> omega
    · rw [hsofar, append_assoc]
      by_cases hk : q.length < got.length
      · -- what is kept is the rest of the filling
        simp only [Pvio.unread, if_pos hk, hr, sliceAt, Int.toNat_natCast]
        rw [drop_append_of_le_length (by omega), take_left' (by rw [length_drop]), take_append_drop]
      -- the filling is given out whole; the fields still describe a drained cache
      have hdry : Pvio.unread ⟨some (got ++ cache.drop got.length), p.cacheSize, p.cachePos⟩ = [] :=
        unread_drained hm
      simp only [if_neg hk, hdry, append_nil, hr, take_length]

/-- **One call keeps the invariant**, and returns between one byte and the number asked for. -/
theorem cacheRead_drains (h : Drains stream p t gave) (q : Request) :
    ∃ out p' t', maPvioCacheRead p t q.length = .ok (out, p', t') ∧
      (1 ≤ out.length ∧ out.length ≤ q.length) ∧ Drains stream p' t' (gave ++ out) := by
  have direct hd :=
    And.intro (maPvioRead_some t q.positive) (drains_direct h hd q.length)
  cases hc : p.cache with
  | none =>
    refine ⟨_, _, _, ?_, direct (by simp [Pvio.unread, hc])⟩
    simp only [maPvioCacheRead, hc]
  | some cache =>
    by_cases hm : p.cacheSize > p.cachePos
    · obtain ⟨out, p', hout, hlen, hd⟩ := cacheRead_cached h hc hm q
      exact ⟨out, p', t, hout, hlen, hd⟩
    by_cases hbig : q.length ≥ readAheadCacheMinSize
    · refine ⟨_, _, _, ?_, direct (unread_drained hm)⟩
      simp only [maPvioCacheRead, hc, if_neg hm, if_pos hbig]
    · exact cacheRead_fill h hc hm q hbig

/-! ## Runs of calls -/

theorem drains_init (stream : Nat → UInt8) (shorts : ShortReads) :
    Drains stream maPvioInit (Transport.start stream shorts) [] where
  source := rfl
  region := by
    intro cache hc
    cases hc
    exact length_replicate
  inside := le_rfl
  filled := Nat.zero_le _
  whole := rfl

/-- A run of calls keeps the invariant. -/
theorem readAll_drains (qs : List Request) :
    ∀ {p : Pvio} {t : Transport} {gave : List UInt8}, Drains stream p t gave →
      ∃ outs p' t', readAll p t qs = .ok (outs, p', t') ∧
        List.Forall₂ (fun (q : Request) out => 1 ≤ out.length ∧ out.length ≤ q.length) qs outs ∧
        Drains stream p' t' (gave ++ outs.flatten) := by
  induction qs with
  | nil =>
    intro p t gave h
    exact ⟨[], p, t, rfl, List.Forall₂.nil, by simpa using h⟩
  | cons q qs ih =>
    intro p t gave h
    obtain ⟨out, p', t', hcall, hlen, hd⟩ := cacheRead_drains h q
    obtain ⟨outs, p'', t'', hrun, hlens, hd'⟩ := ih hd
    refine ⟨out :: outs, p'', t'', ?_, List.Forall₂.cons hlen hlens, ?_⟩
    · simp only [readAll, hcall, ok_bind, hrun]
    · rw [flatten_cons, ← append_assoc]
      exact hd'

/-- **The read-ahead cache is transparent.** Whatever the stream, the short reads and the requests:
every call returns between one byte and the number asked for, the bytes returned are the first bytes
of the stream in their order, and `cache_pos` stays inside the filled part of the cache. -/
theorem cacheRead_transparent (stream : Nat → UInt8) (shorts : ShortReads) (qs : List Request) :
    ∃ outs p t, readAll maPvioInit (Transport.start stream shorts) qs = .ok (outs, p, t) ∧
      List.Forall₂ (fun (q : Request) out => 1 ≤ out.length ∧ out.length ≤ q.length) qs outs ∧
      outs.flatten = loadAt stream 0 outs.flatten.length ∧
      p.cachePos ≤ p.cacheSize ∧ p.cacheSize ≤ readAheadCacheSize := by
  obtain ⟨outs, p, t, hrun, hlens, hd⟩ := readAll_drains qs (drains_init stream shorts)
  refine ⟨outs, p, t, hrun, hlens, ?_, hd.inside, hd.filled⟩
  have hwhole := hd.whole
  rw [Transport.sofar, hd.source] at hwhole
  have hsize : t.delivered = outs.flatten.length + p.unread.length := by
    have := congrArg List.length hwhole
    rwa [length_loadAt, length_append] at this
  rw [hsize, loadAt_add] at hwhole
  exact (append_inj_left hwhole (length_loadAt _ _ _)).symm

end ObConnector.Net.ReadAhead
