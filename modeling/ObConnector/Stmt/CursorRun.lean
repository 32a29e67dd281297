/-
# ObConnector.Stmt.CursorRun -- every row of a cursor, once and in order.

A server that serves a cursor answers each `COM_STMT_FETCH` with the next batch. `Coming` says what it
sends: as long as the status that came last does not say that the last row has been sent, there is another
batch, which has rows or is the last one. Then the calls of `mysql_stmt_fetch` hand out the rows in order,
each once, and after them `MYSQL_NO_DATA` (`cursor_delivers`); one command goes out for each batch.

The bit that a command looks at before it is sent is another one: while the status announces more results,
`mthd_my_send_cmd` refuses. A batch that is not the last one and carries that bit ends the rows early
(`announced_results_stop_fetch`).

The status of an execution is the one in its last packet. When rows come with it, that is the OK packet
behind them and not the packet that ends them.
-/
import ObConnector.Session.Status
import ObConnector.Stmt.CursorFetch

namespace ObConnector.Stmt

open Lib List

/-! ## What the server sends -/

/-- The packet behind the last of a series. -/
def eofPacket (warnings status : UInt16) : Packet :=
  254 :: (leBytes 2 warnings.toNat ++ leBytes 2 status.toNat)

/-- Neither empty, nor an error, nor the end of a series. -/
structure IsRow (p : Packet) : Prop where
  nonempty : p ≠ []
  noError : p.head? ≠ some 255
  noEnd : endsRows p = false

/-- Packets, and the one that ends them. -/
structure Series where
  items : List Packet
  warnings : UInt16
  status : UInt16
  valid : ∀ p ∈ items, IsRow p

/-- The series on the wire. -/
def Series.packets (b : Series) : List Packet := b.items ++ [eofPacket b.warnings b.status]

/-- The answer to `COM_STMT_FETCH`: in Oracle mode the columns come first, behind their number. -/
structure Batch where
  head : Packet
  columns : Series
  rows : Series

/-- The batch on the wire. -/
def Batch.packets (oracleMode : Bool) (b : Batch) : List Packet :=
  if oracleMode then b.head :: (b.columns.packets ++ b.rows.packets) else b.rows.packets

/-- The batch describes that many columns. -/
def Batch.Describes (env : Env) (count : Nat) (b : Batch) : Prop :=
  LenEnc (256 ^ 4) count b.head ∧ env.unpackFields count b.columns.items = true

/-- The batches that come behind a status. -/
inductive Coming : UInt16 → List Batch → Prop
  | done {status : UInt16} (last : hasFlag status.toNat serverStatusLastRowSent = true) : Coming status []
  | more {status : UInt16} {b : Batch} {bs : List Batch}
      (notLast : hasFlag status.toNat serverStatusLastRowSent = false)
      (noMore : hasFlag status.toNat serverMoreResultsExist = false)
      (rows : b.rows.items = [] → hasFlag b.rows.status.toNat serverStatusLastRowSent = true)
      (next : Coming b.rows.status bs) : Coming status (b :: bs)

/-! ## Reading a series -/

section Reading

variable {m : Conn} {rest : List Packet}

theorem maNetSafeRead_row {p : Packet} (hp : IsRow p) (hwire : m.wire = p :: rest) :
    maNetSafeRead m = (some p, { m with wire := rest }) := by
  rw [maNetSafeRead, hwire]
  dsimp only
  rw [if_neg hp.nonempty, if_neg hp.noError]

theorem maNetSafeRead_of_head {p : Packet} {b : UInt8} (hp : p.head? = some b) (hb : b ≠ 255)
    (hwire : m.wire = p :: rest) : maNetSafeRead m = (some p, { m with wire := rest }) := by
  have hne : p ≠ [] := by
    rintro rfl
    exact absurd hp (by simp)
  have herr : p.head? ≠ some 255 := by
    rw [hp]
    exact fun h => hb (Option.some.inj h)
  rw [maNetSafeRead, hwire]
  dsimp only
  rw [if_neg hne, if_neg herr]

theorem endsRows_eofPacket (warnings status : UInt16) : endsRows (eofPacket warnings status) = true := by
  simp [endsRows, eofPacket]

theorem loadNat_eofPacket (warnings status : UInt16) :
    loadNat (eofPacket warnings status) 1 2 = .ok warnings.toNat ∧
      loadNat (eofPacket warnings status) 3 2 = .ok status.toNat := by
  have hsmall : ∀ n : UInt16, n.toNat < 256 ^ 2 := fun n => by
    have hn := n.toNat_lt
    omega
  have hat : At (eofPacket warnings status) 1 (leBytes 2 warnings.toNat ++ (leBytes 2 status.toNat ++ [])) :=
    ⟨[254], by simp [eofPacket], rfl⟩
  have hfirst := hat.loadNat (length_leBytes 2 _)
  have hsecond := hat.skip.loadNat (length_leBytes 2 _)
  rw [leNat_leBytes_of_lt (hsmall _)] at hfirst hsecond
  exact ⟨hfirst, hsecond⟩

/-- Rows are read up to the packet that ends them. -/
theorem readPackets_rows {items : List Packet} (hitems : ∀ p ∈ items, IsRow p) (warnings status : UInt16) :
    ∀ {n : Nat} {m : Conn}, items.length < n → m.wire = items ++ eofPacket warnings status :: rest →
      readPackets n m = (items, some (eofPacket warnings status), { m with wire := rest }) := by
  induction items with
  | nil =>
    intro n m hn hwire
    obtain ⟨n, rfl⟩ := Nat.exists_eq_succ_of_ne_zero (ne_of_gt hn)
    rw [readPackets, maNetSafeRead_of_head rfl (by decide) hwire]
    dsimp only
    rw [if_pos (endsRows_eofPacket warnings status)]
  | cons p items ih =>
    intro n m hn hwire
    obtain ⟨n, rfl⟩ := Nat.exists_eq_succ_of_ne_zero (ne_of_gt (Nat.zero_lt_of_lt hn))
    have hp : IsRow p := hitems p (mem_cons_self ..)
    have hrest := ih (fun q hq => hitems q (mem_cons_of_mem _ hq)) (Nat.lt_of_succ_lt_succ hn)
      (show ({ m with wire := items ++ eofPacket warnings status :: rest } : Conn).wire = _ from rfl)
    rw [cons_append] at hwire
    rw [readPackets, maNetSafeRead_row hp hwire]
    dsimp only
    rw [if_neg (by rw [hp.noEnd]; exact Bool.false_ne_true), hrest]

/-- A series is read up to its end. -/
theorem readPackets_series (b : Series) (hwire : m.wire = b.packets ++ rest) : readPackets (m.wire.length + 1) m =
      (b.items, some (eofPacket b.warnings b.status), { m with wire := rest }) := by
  rw [Series.packets, append_assoc] at hwire
  apply readPackets_rows b.valid
  · rw [hwire, length_append]
    omega
  · exact hwire

/-- The connection behind a series. -/
def Conn.behind (m : Conn) (b : Series) (rest : List Packet) : Conn :=
  { m with
    wire := rest
    session := { m.session with warningCount := b.warnings.toNat, serverStatus := b.status.toNat } }

/-- Descriptions that are accepted. -/
theorem readDefinitions_series {env : Env} {count : Nat} (b : Series) (hwire : m.wire = b.packets ++ rest)
    (haccept : env.unpackFields count b.items = true) :
    readDefinitions env count m = .ok (false, m.behind b rest) := by
  obtain ⟨hwarnings, hstatus⟩ := loadNat_eofPacket b.warnings b.status
  have hlong : 1 < (eofPacket b.warnings b.status).length := by simp [eofPacket]
  rw [readDefinitions, readPackets_series b hwire]
  dsimp only
  rw [hwarnings, hstatus, haccept]
  rfl

/-- What is read of the columns leaves the connection behind them, in the middle of a result. -/
theorem readFields_series {env : Env} {count : Nat} (b : Series) (hwire : m.wire = b.packets ++ rest)
    (haccept : env.unpackFields count b.items = true) :
    readFields env count m = .ok (false, { m.behind b rest with status := .getResult, fieldCount := count }) := by
  have henter : m.enterTrans.wire = b.packets ++ rest := by
    rw [Conn.enterTrans]
    split
    · exact hwire
    · exact hwire
  have hbehind : m.enterTrans.behind b rest = m.behind b rest := by
    rw [Conn.enterTrans]
    split
    · rfl
    · rfl
  rw [readFields, readDefinitions_series b henter haccept, hbehind]
  rfl

/-- A number does not look like an error. -/
theorem lenEnc_head {limit n : Nat} {bs : List UInt8} (h : LenEnc limit n bs) :
    ∃ b, bs.head? = some b ∧ b ≠ 255 := by
  cases h with
  | one b hb =>
    refine ⟨b, rfl, ?_⟩
    rintro rfl
    exact absurd hb (by decide)
  | two bs hbs => exact ⟨252, rfl, by decide⟩
  | three bs hbs => exact ⟨253, rfl, by decide⟩
  | eight bs hbs hlt => exact ⟨254, rfl, by decide⟩

/-- The columns behind their number. -/
theorem mthdMyReadQueryResult_columns {env : Env} {count : Nat} {head : Packet} (b : Series)
    (hhead : LenEnc (256 ^ 4) count head) (hcount : count ≠ 0) (hwire : m.wire = head :: (b.packets ++ rest))
    (haccept : env.unpackFields count b.items = true) :
    mthdMyReadQueryResult env m =
      .ok (false, { m.behind b rest with status := .getResult, fieldCount := count }) := by
  have hat : At head 0 (head ++ []) := ⟨[], by simp, rfl⟩
  obtain ⟨first, hfirst, hne⟩ := lenEnc_head hhead
  have hnet := maNetSafeRead_of_head hfirst hne hwire
  rw [mthdMyReadQueryResult, hnet]
  dsimp only
  rw [hat.readLength hhead, ok_bind]
  rw [if_neg hcount, if_neg hhead.ne_nullLength, readFields_series b rfl haccept]
  rfl

/-- The statement behind a series of rows. -/
def MysqlStmt.received (s : MysqlStmt) (b : Series) (rest : List Packet) : MysqlStmt :=
  { s with
    mysql := s.mysql.behind b rest
    data := b.items
    rows := s.rows + b.items.length
    resultCursor := b.items
    upsertStatus := { s.upsertStatus with
      warningCount := b.warnings.toNat, serverStatus := b.status.toNat } }

theorem mthdStmtReadAllRows_series {s : MysqlStmt} (b : Series) (hwire : s.mysql.wire = b.packets ++ rest) :
    mthdStmtReadAllRows s = .ok (false, s.received b rest) := by
  obtain ⟨hwarnings, hstatus⟩ := loadNat_eofPacket b.warnings b.status
  rw [mthdStmtReadAllRows, readPackets_series b hwire]
  dsimp only
  rw [hwarnings, hstatus]
  rfl

end Reading

/-! ## One call -/

variable {t : MysqlStmt}

section Calls

variable {env : Env} {count : Nat} {bs : List Batch} {s : MysqlStmt}

/-- A statement whose cursor still has these batches to send. -/
structure Serving (env : Env) (count : Nat) (bs : List Batch) (s : MysqlStmt) : Prop where
  columns : s.fieldCount = count
  exist : count ≠ 0
  plain : s.scrollable = false
  ready : s.mysql.status = .ready
  wire : s.mysql.wire = []
  replies : s.mysql.replies = bs.map (Batch.packets s.mysql.session.oracleMode)
  described : s.mysql.session.oracleMode = true → ∀ b ∈ bs, b.Describes env count
  status : ∃ status : UInt16, s.upsertStatus.serverStatus = status.toNat ∧
    s.mysql.serverStatus = status.toNat ∧ Coming status bs

/-- Only the last batch can be empty. -/
theorem Serving.only_last_empty {b : Batch} (h : Serving env count (b :: bs) s) (hempty : b.rows.items = []) :
    bs = [] := by
  obtain ⟨_, -, -, hcoming⟩ := h.status
  cases hcoming with
  | more hlast hmore hrows hnext =>
    cases hnext with
    | done hdone => rfl
    | more hnot _ _ _ => exact absurd ((hrows hempty).symm.trans hnot) (by decide)

/-- Rows are being taken from the cursor. -/
structure Fetching (s : MysqlStmt) : Prop where
  state : s.state = .useOrStoreCalled ∨ s.state = .userFetching
  cursor : s.fetchRowFunc = some .cursor

/-- No row has been asked for yet, or they are being taken. -/
def Open (s : MysqlStmt) : Prop := s.state = .waitingUseOrStore ∧ s.cursorExists = true ∨ Fetching s

/-- The first call chooses how the rows are fetched. -/
def started (s : MysqlStmt) : MysqlStmt := if s.state = .waitingUseOrStore then mysqlStmtUseResult s else s

/-- Only the way in which rows are fetched is different. -/
structure SameRows (s t : MysqlStmt) : Prop where
  mysql : t.mysql = s.mysql
  resultCursor : t.resultCursor = s.resultCursor
  bound : t.bound = s.bound

theorem started_fetching (h : Serving env count bs s) (hopen : Open s) :
    Serving env count bs (started s) ∧ Fetching (started s) ∧ SameRows s (started s) := by
  rcases hopen with ⟨hstate, hcursor⟩ | hfetching
  · have hsome : s.fieldCount ≠ 0 := by
      rw [h.columns]
      exact h.exist
    have huse : started s = { s with
        lastErrno := 0, state := .useOrStoreCalled, fetchRowFunc := some .cursor } := by
      rw [started, if_pos hstate, mysqlStmtUseResult, if_neg]
      · rw [hcursor]
        rfl
      · simp [hsome, hcursor, h.ready, hstate]
    rw [huse]
    exact ⟨⟨h.columns, h.exist, h.plain, h.ready, h.wire, h.replies, h.described, h.status⟩, ⟨.inl rfl, rfl⟩,
      ⟨rfl, rfl, rfl⟩⟩
  have hsame : started s = s := by
    rw [started, if_neg]
    rcases hfetching.state with h | h <;> rw [h] <;> decide
  rw [hsame]
  exact ⟨h, hfetching, ⟨rfl, rfl, rfl⟩⟩

/-- A command is sent while no more results are announced. -/
theorem mthdMySendCmd_ready {m : Conn} (hready : m.status = .ready)
    (hmore : hasFlag m.serverStatus serverMoreResultsExist = false) (request : Request) :
    mthdMySendCmd m request = (false, { m with
      lastErrno := 0, sent := m.sent ++ [request], wire := m.wire ++ m.replies.headD [],
      replies := m.replies.tail }) := by
  rw [mthdMySendCmd]
  simp [hready, hmore]

/-- The statement behind a batch, whatever has become of its descriptions and counters. -/
structure Behind (env : Env) (count : Nat) (bs : List Batch) (b : Batch) (s t : MysqlStmt) : Prop where
  serving : Serving env count bs t
  fetching : Fetching t
  rows : t.resultCursor = b.rows.items
  bound : t.bound = s.bound
  sent : ∃ request : Request, request.command = comStmtFetch ∧ t.mysql.sent = s.mysql.sent ++ [request]

theorem fetchBatch_read {arg : List UInt8} {readBatch : MysqlStmt → Except Fault (Bool × MysqlStmt)} {m : Conn}
    (hsend : mthdMySendCmd s.mysql ⟨comStmtFetch, arg⟩ = (false, m))
    (hread : readBatch (s.dropRows m) = .ok (false, t)) :
    fetchBatch arg readBatch s = .ok (stmtBufferedFetch t) := by
  rw [fetchBatch, hsend]
  dsimp only
  rw [hread]
  rfl

/-- The columns and the rows of a batch in Oracle mode. -/
theorem readOracleBatch_batch {b : Batch} (hdescribes : b.Describes env count) (hcount : count ≠ 0)
    (hcolumns : s.fieldCount = count) (hplain : s.scrollable = false)
    (hwire : s.mysql.wire = b.packets true) :
    readOracleBatch env s = .ok (false,
      ({ s with mysql := { s.mysql.behind b.columns b.rows.packets with fieldCount := count } } :
        MysqlStmt).received b.rows []) := by
  obtain ⟨hhead, haccept⟩ := hdescribes
  have hfields := mthdMyReadQueryResult_columns b.columns hhead hcount hwire haccept
  have hsame : reinitResultSetMetadata
      { s with mysql := { s.mysql.behind b.columns b.rows.packets with
        status := .getResult, fieldCount := count } } =
      (false, { s with mysql := { s.mysql.behind b.columns b.rows.packets with
        status := .getResult, fieldCount := count } }) := by
    have hsome : s.fieldCount ≠ 0 := by
      rw [hcolumns]
      exact hcount
    rw [reinitResultSetMetadata, if_neg hsome, if_neg (not_not.mpr hcolumns)]
  have hrows := mthdStmtReadAllRows_series b.rows
    (s := { s with mysql := { s.mysql.behind b.columns b.rows.packets with fieldCount := count } })
    (append_nil _).symm
  rw [readOracleBatch, onConn, hfields]
  dsimp only [pure_eq_ok, andThen, ok_bind]
  rw [if_neg Bool.false_ne_true, hsame]
  rw [if_neg Bool.false_ne_true]
  erw [hrows]
  dsimp only [ok_bind]
  rw [if_neg Bool.false_ne_true, readFetchOk, if_neg]
  · rfl
  · intro hscroll
    exact Bool.false_ne_true (hplain.symm.trans hscroll.1)

/-- The next batch comes when the rows that are here have been taken. -/
theorem stmtCursorFetch_batch {b : Batch} (h : Serving env count (b :: bs) s) (hfetching : Fetching s)
    (hrows : s.resultCursor = []) :
    ∃ t, stmtCursorFetch env s = .ok (stmtBufferedFetch t) ∧ Behind env count bs b s t := by
  obtain ⟨status, hupsert, hserver, hcoming⟩ := h.status
  have hstate : ¬s.state.code < StmtState.useOrStoreCalled.code := by
    rcases hfetching.state with hs | hs <;> rw [hs] <;> decide
  cases hcoming with
  | more hlast hmore hlastRows hnext =>
    rw [← hserver] at hmore
    rw [← hupsert] at hlast
    have hsend := mthdMySendCmd_ready h.ready hmore
    rw [h.wire, h.replies] at hsend
    rw [stmtCursorFetch, if_neg hstate]
    cases horacle : s.mysql.session.oracleMode with
    | false =>
      rw [if_neg Bool.false_ne_true, if_neg (not_not.mpr hrows), if_neg (by rw [hlast]; exact Bool.false_ne_true)]
      rw [horacle] at hsend
      refine ⟨_, fetchBatch_read (hsend _) (mthdStmtReadAllRows_series b.rows (append_nil _).symm), ?_⟩
      refine ⟨⟨h.columns, h.exist, h.plain, h.ready, rfl, ?_, ?_, ⟨b.rows.status, rfl, rfl, hnext⟩⟩,
        ⟨hfetching.state, hfetching.cursor⟩, rfl, rfl, ⟨_, rfl, rfl⟩⟩
      · show List.map _ bs = _
        exact congrArg (fun mode => List.map (Batch.packets mode) bs) horacle.symm
      · intro htrue
        exact absurd (horacle.symm.trans htrue) Bool.false_ne_true
    | true =>
      have hdescribes := h.described horacle b (mem_cons_self ..)
      rw [horacle] at hsend
      rw [if_pos rfl, doStmtReadRowFromOracleImplicitCursor]
      rw [if_neg (fun hhere => hhere.1 hrows), hlast, if_neg (fun hno => Bool.false_ne_true hno.2),
        if_neg (fun hno => Bool.false_ne_true hno.2.1)]
      refine ⟨_, fetchBatch_read (hsend _) (readOracleBatch_batch hdescribes h.exist h.columns h.plain rfl), ?_⟩
      refine ⟨⟨h.columns, h.exist, h.plain, h.ready, rfl, ?_, ?_, ⟨b.rows.status, rfl, rfl, hnext⟩⟩,
        ⟨hfetching.state, hfetching.cursor⟩, rfl, rfl, ⟨_, rfl, rfl⟩⟩
      · show List.map _ bs = _
        exact congrArg (fun mode => List.map (Batch.packets mode) bs) horacle.symm
      · intro _ b' hb'
        exact h.described horacle b' (mem_cons_of_mem _ hb')

/-- A row that is here is the next one. -/
theorem stmtCursorFetch_row {row : Packet} {rows : List Packet} (hfetching : Fetching s)
    (hrows : s.resultCursor = row :: rows) : stmtCursorFetch env s = .ok (stmtBufferedFetch s) := by
  have hstate : ¬s.state.code < StmtState.useOrStoreCalled.code := by
    rcases hfetching.state with hs | hs <;> rw [hs] <;> decide
  have hne : s.resultCursor ≠ [] := by
    rw [hrows]
    exact cons_ne_nil _ _
  rw [stmtCursorFetch, if_neg hstate]
  split
  · rw [doStmtReadRowFromOracleImplicitCursor, if_pos ⟨hne, rfl⟩]
  · rfl

/-- Behind the last row there is nothing, and nobody is asked. -/
theorem stmtCursorFetch_last (h : Serving env count [] s) (hfetching : Fetching s) (hrows : s.resultCursor = []) :
    stmtCursorFetch env s = .ok (mysqlNoData, none, s.clearLastRowSent) := by
  have hstate : ¬s.state.code < StmtState.useOrStoreCalled.code := by
    rcases hfetching.state with hs | hs <;> rw [hs] <;> decide
  obtain ⟨status, hupsert, -, hcoming⟩ := h.status
  cases hcoming with
  | done hlast =>
    rw [← hupsert] at hlast
    rw [stmtCursorFetch, if_neg hstate, hlast]
    split
    · rw [doStmtReadRowFromOracleImplicitCursor, if_neg (fun hhere => hhere.1 hrows), if_pos ⟨h.plain, hlast⟩]
    · rw [if_neg (not_not.mpr hrows), if_pos rfl]

/-- The rows that have not been handed out. -/
def remaining (bs : List Batch) (s : MysqlStmt) : List Packet :=
  s.resultCursor ++ bs.flatMap fun b => b.rows.items

/-- Between two states of a statement, `n` batches have been asked for. -/
def Asked (n : Nat) (s t : MysqlStmt) : Prop :=
  ∃ requests : List Request, t.mysql.sent = s.mysql.sent ++ requests ∧ requests.length = n ∧
    ∀ request ∈ requests, request.command = comStmtFetch

theorem Asked.none (h : t.mysql.sent = s.mysql.sent) : Asked 0 s t :=
  ⟨[], by rw [h, append_nil], rfl, by simp⟩

theorem Asked.trans {u : MysqlStmt} {n k : Nat} (h : Asked n s t) (h' : Asked k t u) : Asked (n + k) s u := by
  obtain ⟨requests, hsent, hlen, hall⟩ := h
  obtain ⟨requests', hsent', hlen', hall'⟩ := h'
  refine ⟨requests ++ requests', by rw [hsent', hsent, append_assoc], ?_, ?_⟩
  · rw [length_append, hlen, hlen']
  · intro request hmem
    rcases mem_append.mp hmem with hm | hm
    · exact hall request hm
    · exact hall' request hm

/-- What one call does while there are rows. -/
structure HandsOut (env : Env) (count : Nat) (bs : List Batch) (row : Packet) (rest : List Packet)
    (s : MysqlStmt) (rc : Int) (t : MysqlStmt) : Prop where
  rc : rc = 0 ∨ rc = mysqlDataTruncated
  bound : t.bound = s.bound ++ [row]
  later : ∃ bs', Serving env count bs' t ∧ Open t ∧ remaining bs' t = rest ∧
    ∃ n, Asked n s t ∧ n + bs'.length = bs.length

/-- What a call does when there are none. -/
structure Ends (bs : List Batch) (s t : MysqlStmt) : Prop where
  state : t.state = .fetchDone
  columns : t.fieldCount ≠ 0
  bound : t.bound = s.bound
  asked : Asked bs.length s t

section

variable (h : Serving env count bs s) (hopen : Open s)
include h hopen

/-- A call that gets as far as the cursor. -/
theorem mysqlStmtFetch_started : mysqlStmtFetch env s = stmtCursorFetch env (started s) >>= fun r =>
      match r with
      | (0, some row, t) =>
        .ok ((mthdStmtFetchToBind env row t).1, { (mthdStmtFetchToBind env row t).2 with
          state := .userFetching, lastErrno := 0, mysql := { t.mysql with lastErrno := 0 } })
      | (rc, _, t) => .ok (rc, { t with state := .fetchDone, mysql := { t.mysql with status := .ready } }) := by
  obtain ⟨-, hfetching, -⟩ := started_fetching h hopen
  have hsome : s.fieldCount ≠ 0 := by
    rw [h.columns]
    exact h.exist
  have hcode : ¬s.state.code ≤ StmtState.executed.code ∧
      ¬(s.state.code < StmtState.waitingUseOrStore.code ∨ s.fieldCount = 0) := by
    rcases hopen with hwaiting | hfetch
    · rw [hwaiting.1]
      exact ⟨by decide, by simp [hsome]⟩
    · rcases hfetch.state with hs | hs <;> rw [hs] <;> exact ⟨by decide, by simp [hsome, StmtState.code]⟩
  have hgo : (started s).state ≠ .fetchDone := by
    rcases hfetching.state with hs | hs <;> rw [hs] <;> decide
  rw [mysqlStmtFetch, if_neg hcode.1, if_neg hcode.2]
  rw [← started, if_neg hgo, mthdStmtFetchRow, hfetching.cursor]
  rfl

/-- A row that has been taken is bound, and the statement goes on. -/
theorem mysqlStmtFetch_row {row : Packet} {rows : List Packet}
    (hfetch : stmtCursorFetch env (started s) = .ok (stmtBufferedFetch t)) (hrows : t.resultCursor = row :: rows) :
    mysqlStmtFetch env s = .ok (if env.truncates t.bound row then mysqlDataTruncated else 0, { t with
        state := .userFetching, resultCursor := rows, bound := t.bound ++ [row], lastErrno := 0
        mysql := { t.mysql with lastErrno := 0 } }) := by
  rw [mysqlStmtFetch_started h hopen, hfetch, stmtBufferedFetch, hrows]
  rfl

/-- A call that finds nothing is the last one that looks. -/
theorem mysqlStmtFetch_noData {row : Option Packet}
    (hfetch : stmtCursorFetch env (started s) = .ok (mysqlNoData, row, t)) :
    mysqlStmtFetch env s = .ok (mysqlNoData, { t with
      state := .fetchDone, mysql := { t.mysql with status := .ready } }) := by
  rw [mysqlStmtFetch_started h hopen, hfetch]
  rfl

/-- From a statement that has a row at hand, the row is handed out. -/
theorem handsOut_row {row : Packet} {rows : List Packet} {bs' : List Batch} {n : Nat}
    (hfetch : stmtCursorFetch env (started s) = .ok (stmtBufferedFetch t)) (hserving : Serving env count bs' t)
    (hfetching : Fetching t) (hrows : t.resultCursor = row :: rows) (hbound : t.bound = s.bound)
    (hasked : Asked n s t) (hn : n + bs'.length = bs.length) : ∃ rc t', mysqlStmtFetch env s = .ok (rc, t') ∧
      HandsOut env count bs row (rows ++ bs'.flatMap fun b => b.rows.items) s rc t' := by
  refine ⟨_, _, mysqlStmtFetch_row h hopen hfetch hrows, ?_, ?_, bs', ?_, .inr ⟨.inr rfl, hfetching.cursor⟩, rfl,
    n, hasked, hn⟩
  · split
    · exact .inr rfl
    · exact .inl rfl
  · exact congrArg (· ++ [row]) hbound
  · exact ⟨hserving.columns, hserving.exist, hserving.plain, hserving.ready, hserving.wire, hserving.replies,
      hserving.described, hserving.status⟩

/-- **One call**: the next row is handed out, or there is none. -/
theorem mysqlStmtFetch_step : (∃ row rest, remaining bs s = row :: rest ∧
      ∃ rc t, mysqlStmtFetch env s = .ok (rc, t) ∧ HandsOut env count bs row rest s rc t) ∨
    (remaining bs s = [] ∧ ∃ t, mysqlStmtFetch env s = .ok (mysqlNoData, t) ∧ Ends bs s t) := by
  obtain ⟨hserving, hfetching, hsame⟩ := started_fetching h hopen
  have hsent : (started s).mysql.sent = s.mysql.sent := by rw [hsame.mysql]
  cases hcursor : s.resultCursor with
  | cons row rows =>
    have hrows : (started s).resultCursor = row :: rows := hsame.resultCursor.trans hcursor
    refine .inl ⟨row, _, by rw [remaining, hcursor, cons_append], ?_⟩
    exact handsOut_row h hopen (stmtCursorFetch_row hfetching hrows) hserving hfetching hrows hsame.bound
      (Asked.none hsent) (zero_add _)
  | nil =>
    have hrows : (started s).resultCursor = [] := hsame.resultCursor.trans hcursor
    cases bs with
    | nil =>
      refine .inr ⟨by rw [remaining, hcursor]; rfl, _,
        mysqlStmtFetch_noData h hopen (stmtCursorFetch_last hserving hfetching hrows), rfl, ?_, hsame.bound,
        Asked.none hsent⟩
      exact fun hzero => h.exist (hserving.columns.symm.trans hzero)
    | cons b bs =>
      obtain ⟨t, hfetch, hbehind⟩ := stmtCursorFetch_batch hserving hfetching hrows
      obtain ⟨request, hcommand, hrequest⟩ := hbehind.sent
      have hasked : Asked 1 s t :=
        ⟨[request], by rw [hrequest, hsent], rfl, by simpa using hcommand⟩
      have hbound : t.bound = s.bound := hbehind.bound.trans hsame.bound
      cases hitems : b.rows.items with
      | cons row rows =>
        refine .inl ⟨row, rows ++ bs.flatMap fun b => b.rows.items, ?_, ?_⟩
        · rw [remaining, hcursor, flatMap_cons, hitems]
          rfl
        · exact handsOut_row h hopen hfetch hbehind.serving hbehind.fetching (hbehind.rows.trans hitems) hbound
            hasked (add_comm 1 _)
      | nil =>
        obtain rfl : bs = [] := h.only_last_empty hitems
        have hempty : stmtCursorFetch env (started s) = .ok (mysqlNoData, none, { t with state := .fetchDone }) := by
          rw [hfetch, stmtBufferedFetch, hbehind.rows, hitems]
        refine .inr ⟨by rw [remaining, hcursor, flatMap_cons, hitems]; rfl, _,
          mysqlStmtFetch_noData h hopen hempty, rfl, ?_, hbound, hasked⟩
        exact fun hzero => h.exist (hbehind.serving.columns.symm.trans hzero)

end

/-- After the end every call says so. -/
theorem fetchCalls_done (hstate : s.state = .fetchDone) (hcolumns : s.fieldCount ≠ 0) (n : Nat) :
    fetchCalls env n s = .ok (List.replicate n mysqlNoData, s) := by
  have hone : mysqlStmtFetch env s = .ok (mysqlNoData, s) := by
    rw [mysqlStmtFetch, if_neg (by rw [hstate]; decide), if_neg (by simp [hstate, hcolumns, StmtState.code])]
    rw [if_neg (show ¬s.state = .waitingUseOrStore by rw [hstate]; decide), if_pos hstate]
  induction n with
  | zero => rfl
  | succ n ih =>
    rw [fetchCalls, hone, ok_bind]
    dsimp only
    rw [ih]
    rfl

/-- What a number of calls do together. -/
structure RowsDelivered (rows : List Packet) (batches n : Nat) (s : MysqlStmt) (rcs : List Int) (t : MysqlStmt) :
    Prop where
  length : rcs.length = n
  /-- the rows go to the variables, in order and each once -/
  bound : t.bound = s.bound ++ rows.take n
  success : ∀ rc ∈ rcs.take rows.length, rc = 0 ∨ rc = mysqlDataTruncated
  noData : rcs.drop rows.length = List.replicate (n - rows.length) mysqlNoData
  /-- one command for each batch -/
  asked : ∃ k, Asked k s t ∧ k ≤ batches ∧ (rows.length < n → k = batches)

/-- **A run of calls**: by induction on their number, each call by `mysqlStmtFetch_step`. -/
theorem fetchCalls_delivers (n : Nat) (h : Serving env count bs s) (hopen : Open s) :
    ∃ rcs t, fetchCalls env n s = .ok (rcs, t) ∧ RowsDelivered (remaining bs s) bs.length n s rcs t := by
  induction n generalizing bs s with
  | zero => exact ⟨[], s, rfl, rfl, by simp, by simp, by simp, 0, Asked.none rfl, Nat.zero_le _, by simp⟩
  | succ n ih =>
    rcases mysqlStmtFetch_step h hopen with ⟨row, rest, hrows, rc, t, hcall, hout⟩ | ⟨hrows, t, hcall, hends⟩
    · obtain ⟨bs', hserving, hopen', hrest, k, hasked, hk⟩ := hout.later
      obtain ⟨rcs, u, hcalls, hdelivers⟩ := ih hserving hopen'
      rw [hrest] at hdelivers
      obtain ⟨j, hasked', hle, heq⟩ := hdelivers.asked
      refine ⟨rc :: rcs, u, by rw [fetchCalls, hcall, ok_bind]; dsimp only; rw [hcalls]; rfl, ?_⟩
      rw [hrows]
      refine ⟨by rw [length_cons, hdelivers.length], ?_, ?_, ?_, k + j, hasked.trans hasked', ?_, ?_⟩
      · rw [hdelivers.bound, hout.bound, take_succ_cons, append_assoc, singleton_append]
      · intro rc' hmem
        rcases mem_cons.mp hmem with rfl | hlater
        · exact hout.rc
        · exact hdelivers.success rc' hlater
      · rw [length_cons, drop_succ_cons, hdelivers.noData, Nat.succ_sub_succ]
      · omega
      · intro hlt
        have hj := heq (Nat.lt_of_succ_lt_succ hlt)
        omega
    · refine ⟨_, t, by rw [fetchCalls, hcall, ok_bind]; dsimp only
                       rw [fetchCalls_done hends.state hends.columns]; rfl, ?_⟩
      rw [hrows]
      exact ⟨by simp, by simp [hends.bound], by simp, by simp [replicate_succ], bs.length, hends.asked,
        le_rfl, fun _ => rfl⟩

end Calls

/-! ## The execution -/

/-- The answer to `COM_STMT_PREPARE_EXECUTE`. -/
structure PrepareExecute where
  stmtId : UInt32
  fieldCount : UInt16
  paramCount : UInt16
  reserved : UInt8
  warnings : UInt16
  extendFlag : UInt32
  hasResultSet : UInt8
  /-- the rest of the first packet -/
  tail : List UInt8
  params : Series
  columns : Series
  rows : Series
  ok : Session.OkPacket

/-- The first packet. -/
def PrepareExecute.head (r : PrepareExecute) : Packet :=
  0 :: (leBytes 4 r.stmtId.toNat ++ (leBytes 2 r.fieldCount.toNat ++ (leBytes 2 r.paramCount.toNat ++
    ([r.reserved] ++ (leBytes 2 r.warnings.toNat ++ (leBytes 4 r.extendFlag.toNat ++
      ([r.hasResultSet] ++ r.tail)))))))

/-- The answer on the wire. -/
def PrepareExecute.packets (r : PrepareExecute) : List Packet :=
  r.head :: ((if r.paramCount = 0 then [] else r.params.packets) ++ (r.columns.packets ++
    ((if r.hasResultSet = 0 then [] else r.rows.packets) ++ [r.ok.bytes])))

/-- The answer to an execution. -/
inductive Execution where
  | execute (head : Packet) (columns : Series)
  | prepareExecute (r : PrepareExecute)

/-- The answer on the wire. -/
def Execution.packets : Execution → List Packet
  | .execute head columns => head :: columns.packets
  | .prepareExecute r => r.packets

/-- The rows that come with it. -/
def Execution.rows : Execution → List Packet
  | .execute _ _ => []
  | .prepareExecute r => if r.hasResultSet = 0 then [] else r.rows.items

/-- The status in its last packet. -/
def Execution.status : Execution → UInt16
  | .execute _ columns => columns.status
  | .prepareExecute r => r.ok.serverStatus

/-- The statement asked for this answer, and it describes that many columns. -/
def Execution.Answers (env : Env) (count : Nat) (s : MysqlStmt) : Execution → Prop
  | .execute head columns =>
    s.usePrepareExecute = false ∧ s.cursorReadOnly = true ∧ LenEnc (256 ^ 4) count head ∧
      env.unpackFields count columns.items = true ∧ (s.fieldCount = 0 ∨ s.fieldCount = count)
  | .prepareExecute r =>
    s.usePrepareExecute = true ∧ s.mysql.session.oracleMode = true ∧ r.stmtId ≠ 0 ∧
      (r.paramCount ≠ 0 → env.unpackFields r.paramCount.toNat r.params.items = true ∧
        (hasFlag r.extendFlag.toNat extendFlagReturning = true ∨ s.paramCount = r.paramCount.toNat)) ∧
      r.fieldCount.toNat = count ∧ env.unpackFields count r.columns.items = true ∧
      (s.fieldCount = 0 ∨ s.fieldCount = count) ∧
      r.ok.header = 0 ∧ ∀ session, ∃ read, Session.maReadOkPacket env.server r.ok.bytes session = .ok read

section Opening

variable {env : Env} {count : Nat} {s : MysqlStmt}

/-- New columns, or as many as before. -/
theorem reinitResultSetMetadata_same (hcount : count ≠ 0) (hmysql : s.mysql.fieldCount = count)
    (hcolumns : s.fieldCount = 0 ∨ s.fieldCount = count) :
    ∃ pieces, reinitResultSetMetadata s = (false, { s with fieldCount := count, pieceDataUsed := pieces }) := by
  by_cases hzero : s.fieldCount = 0
  · rw [reinitResultSetMetadata, if_pos hzero, allocStmtFields, if_neg (by rw [hmysql]; exact hcount), hmysql]
    exact ⟨_, rfl⟩
  have hsame : s.fieldCount = count := hcolumns.resolve_left hzero
  rw [reinitResultSetMetadata, if_neg hzero, if_neg (not_not.mpr (hsame.trans hmysql.symm))]
  subst hsame
  exact ⟨s.pieceDataUsed, rfl⟩

/-- A status that speaks of a cursor opens it. -/
theorem openRows_cursor (ret : Int) (hcount : count ≠ 0) (hmysql : s.mysql.fieldCount = count)
    (hcolumns : s.fieldCount = 0 ∨ s.fieldCount = count)
    (hcursor : hasFlag s.upsertStatus.serverStatus serverStatusCursorExists = true)
    (hasked : s.cursorReadOnly = true ∨ s.usePrepareExecute = true) :
    ∃ pieces, openRows ret s = .ok (ret, { s with
      fieldCount := count, pieceDataUsed := pieces, cursorExists := true, state := .waitingUseOrStore
      mysql := { s.mysql with status := .ready } }) := by
  obtain ⟨pieces, hreinit⟩ := reinitResultSetMetadata_same hcount hmysql hcolumns
  refine ⟨pieces, ?_⟩
  rw [openRows, if_neg (by rw [hmysql]; exact hcount), hreinit, andThen, ok_bind]
  dsimp only
  rw [if_neg Bool.false_ne_true, chooseRows]
  rw [if_pos ⟨hcursor, hasked⟩]
  rfl

/-- The cursor is open: these rows are here, and nothing else has been sent. -/
structure Opened (env : Env) (count : Nat) (bs : List Batch) (rows : List Packet) (s t : MysqlStmt) : Prop where
  serving : Serving env count bs t
  isOpen : Open t
  rows : t.resultCursor = rows
  bound : t.bound = s.bound
  sent : t.mysql.sent = s.mysql.sent

/-- What has been said to the server so far, and what it will say. -/
structure Waits (x : Execution) (bs : List Batch) (s : MysqlStmt) : Prop where
  wire : s.mysql.wire = x.packets
  replies : s.mysql.replies = bs.map (Batch.packets s.mysql.session.oracleMode)
  fresh : s.resultCursor = []
  plain : s.scrollable = false

theorem execute_opens {bs : List Batch} {head : Packet} {columns : Series}
    (hwaits : Waits (.execute head columns) bs s) (hcount : count ≠ 0)
    (hanswers : (Execution.execute head columns).Answers env count s)
    (hdescribes : s.mysql.session.oracleMode = true → ∀ b ∈ bs, b.Describes env count)
    (hcursor : hasFlag columns.status.toNat serverStatusCursorExists = true)
    (hcoming : Coming columns.status bs) :
    ∃ t, stmtReadExecuteResponse env s = .ok (0, t) ∧ Opened env count bs [] s t := by
  obtain ⟨hold, hasked, hhead, haccept, hcolumns⟩ := hanswers
  have hwire : s.mysql.wire = head :: (columns.packets ++ []) := by
    rw [append_nil]
    exact hwaits.wire
  have hread := mthdMyReadQueryResult_columns columns hhead hcount hwire haccept
  have hresponse : readResponse env s = .ok (false, { s with mysql :=
      { s.mysql.behind columns [] with status := .getResult, fieldCount := count } }) := by
    rw [readResponse, if_neg (by rw [hold]; exact Bool.false_ne_true), onConn, hread]
    rfl
  obtain ⟨pieces, hopen⟩ := openRows_cursor 0 hcount
    (s := { s with
      state := .executed, lastErrno := 0
      upsertStatus := ⟨s.mysql.session.affectedRows, s.mysql.session.insertId, columns.status.toNat,
        columns.warnings.toNat⟩
      mysql := { s.mysql.behind columns [] with status := .getResult, fieldCount := count, lastErrno := 0 } })
    rfl hcolumns hcursor (.inl hasked)
  refine ⟨_, by rw [stmtReadExecuteResponse, hresponse]; exact hopen, ?_⟩
  exact ⟨⟨rfl, hcount, hwaits.plain, rfl, rfl, hwaits.replies, hdescribes, ⟨_, rfl, rfl, hcoming⟩⟩,
    .inl ⟨rfl, rfl⟩, hwaits.fresh, rfl, rfl⟩

theorem PrepareExecute.head_loads (r : PrepareExecute) :
    loadNat r.head 1 4 = .ok r.stmtId.toNat ∧ loadNat r.head 5 2 = .ok r.fieldCount.toNat ∧
      loadNat r.head 7 2 = .ok r.paramCount.toNat ∧ loadNat r.head 10 2 = .ok r.warnings.toNat ∧
      loadNat r.head 12 4 = .ok r.extendFlag.toNat ∧ loadNat r.head 16 1 = .ok r.hasResultSet.toNat := by
  have hshort : ∀ n : UInt16, n.toNat < 256 ^ 2 := fun n => by
    have hn := n.toNat_lt
    omega
  have hlong : ∀ n : UInt32, n.toNat < 256 ^ 4 := fun n => by
    have hn := n.toNat_lt
    omega
  have hat : At r.head 1 (leBytes 4 r.stmtId.toNat ++ (leBytes 2 r.fieldCount.toNat ++
      (leBytes 2 r.paramCount.toNat ++ ([r.reserved] ++ (leBytes 2 r.warnings.toNat ++
        (leBytes 4 r.extendFlag.toNat ++ ([r.hasResultSet] ++ r.tail))))))) := ⟨[0], rfl, rfl⟩
  have hid := hat.loadNat (length_leBytes 4 _)
  have hfields := hat.skip.loadNat (length_leBytes 2 _)
  have hparams := hat.skip.skip.loadNat (length_leBytes 2 _)
  have hwarnings := hat.skip.skip.skip.skip.loadNat (length_leBytes 2 _)
  have hextend := hat.skip.skip.skip.skip.skip.loadNat (length_leBytes 4 _)
  have hrows := hat.skip.skip.skip.skip.skip.skip.loadNat rfl
  simp only [length_leBytes, length_singleton] at hrows
  rw [leNat_leBytes_of_lt (hlong _)] at hid hextend
  rw [leNat_leBytes_of_lt (hshort _)] at hfields hparams hwarnings
  refine ⟨hid, hfields, hparams, hwarnings, hextend, ?_⟩
  rw [hrows]
  simp [leNat]

/-- What the parts of the answer leave alone. -/
structure Untouched (s t : MysqlStmt) : Prop where
  replies : t.mysql.replies = s.mysql.replies
  sent : t.mysql.sent = s.mysql.sent
  oracleMode : t.mysql.session.oracleMode = s.mysql.session.oracleMode
  scrollable : t.scrollable = s.scrollable
  prepareExecute : t.usePrepareExecute = s.usePrepareExecute
  bound : t.bound = s.bound

theorem Untouched.trans {u : MysqlStmt} (h : Untouched s t) (h' : Untouched t u) : Untouched s u :=
  ⟨h'.replies.trans h.replies, h'.sent.trans h.sent, h'.oracleMode.trans h.oracleMode,
    h'.scrollable.trans h.scrollable, h'.prepareExecute.trans h.prepareExecute, h'.bound.trans h.bound⟩

theorem readParams_ok {n : Nat} {b : Series} {rest : List Packet}
    (hwire : s.mysql.wire = (if n = 0 then [] else b.packets) ++ rest)
    (hparams : n ≠ 0 → env.unpackFields n b.items = true ∧ (s.isHandleReturningInto = true ∨ s.paramCount = n)) :
    ∃ t, readParams env n s = .ok (false, t) ∧ Untouched s t ∧ t.mysql.wire = rest ∧
      t.fieldCount = s.fieldCount ∧ t.resultCursor = s.resultCursor := by
  by_cases hn : n = 0
  · rw [if_pos hn] at hwire
    exact ⟨s, by rw [readParams, if_pos hn], ⟨rfl, rfl, rfl, rfl, rfl, rfl⟩, hwire, rfl, rfl⟩
  rw [if_neg hn] at hwire
  obtain ⟨haccept, hcount⟩ := hparams hn
  have hread := readDefinitions_series b hwire haccept
  rw [readParams, if_neg hn]
  cases hinto : s.isHandleReturningInto with
  | true =>
    rw [if_pos rfl, if_neg (not_not.mpr rfl), onConn, hread]
    exact ⟨_, rfl, ⟨rfl, rfl, rfl, rfl, rfl, rfl⟩, rfl, rfl, rfl⟩
  | false =>
    have hsame : s.paramCount = n := hcount.resolve_left (by rw [hinto]; exact Bool.false_ne_true)
    rw [if_neg Bool.false_ne_true, if_neg (not_not.mpr hsame.symm), onConn, hread]
    exact ⟨_, rfl, ⟨rfl, rfl, rfl, rfl, rfl, rfl⟩, rfl, rfl, rfl⟩

theorem readColumns_ok {b : Series} {rest : List Packet} (hcount : count ≠ 0)
    (hwire : s.mysql.wire = b.packets ++ rest) (haccept : env.unpackFields count b.items = true)
    (hcolumns : s.fieldCount = 0 ∨ s.fieldCount = count) :
    ∃ t, readColumns env count s = .ok (false, t) ∧ Untouched s t ∧ t.mysql.wire = rest ∧
      t.fieldCount = count ∧ t.mysql.fieldCount = count ∧ t.resultCursor = s.resultCursor := by
  have hread := readFields_series (m := { s.mysql with fieldCount := 0 }) b hwire haccept
  obtain ⟨pieces, hreinit⟩ := reinitResultSetMetadata_same
    (s := { s with mysql := { s.mysql.behind b rest with status := .getResult, fieldCount := count } })
    hcount rfl hcolumns
  rw [readColumns, if_neg hcount]
  rw [onConn, hread]
  refine ⟨_, congrArg Except.ok hreinit, ⟨rfl, rfl, rfl, rfl, rfl, rfl⟩, rfl, rfl, rfl, rfl⟩

/-- The OK packet at the end decides the status. -/
theorem readExtraOk_ok {ok : Session.OkPacket} (hheader : ok.header = 0)
    (hread : ∀ session, ∃ read, Session.maReadOkPacket env.server ok.bytes session = .ok read)
    (hwire : s.mysql.wire = [ok.bytes]) (horacle : s.mysql.session.oracleMode = true) :
    ∃ t, readExtraOk env s = .ok (false, t) ∧ Untouched s t ∧ t.mysql.wire = [] ∧
      t.mysql.serverStatus = ok.serverStatus.toNat ∧ t.fieldCount = s.fieldCount ∧
      t.mysql.fieldCount = s.mysql.fieldCount ∧ t.resultCursor = s.resultCursor := by
  have hhead : ok.bytes.head? = some 0 := by rw [Session.OkPacket.bytes, hheader, List.head?_cons]
  obtain ⟨⟨session, ret⟩, hok⟩ := hread s.mysql.session
  have hstatus := Session.maReadOkPacket_status ok hok
  have hmode : session.oracleMode = s.mysql.session.oracleMode := by
    rw [hstatus.oracleMode, Session.Mysql.count, horacle]
    rfl
  rw [readExtraOk, maNetSafeRead_of_head hhead (by decide) hwire]
  dsimp only
  rw [if_pos hhead, hok]
  exact ⟨_, rfl, ⟨rfl, rfl, hmode, rfl, rfl, rfl⟩, rfl, hstatus.serverStatus, rfl, rfl, rfl⟩

/-- The rows of the answer, if it has any. -/
theorem readFirst_ok {flag : UInt8} {b : Series} {rest : List Packet} (hfresh : s.resultCursor = [])
    (hwire : s.mysql.wire = (if flag = 0 then [] else b.packets) ++ rest) :
    ∃ t, (if flag.toNat = 0 then Except.ok (false, s) else mthdStmtReadAllRows s) = .ok (false, t) ∧
      Untouched s t ∧ t.mysql.wire = rest ∧ t.fieldCount = s.fieldCount ∧
      t.mysql.fieldCount = s.mysql.fieldCount ∧ t.resultCursor = if flag = 0 then [] else b.items := by
  by_cases hflag : flag = 0
  · subst hflag
    exact ⟨s, rfl, ⟨rfl, rfl, rfl, rfl, rfl, rfl⟩, hwire, rfl, rfl, hfresh⟩
  have hne : flag.toNat ≠ 0 := fun h => hflag (UInt8.toNat_inj.mp h)
  rw [if_neg hflag] at hwire
  rw [if_neg hne, if_neg hflag, mthdStmtReadAllRows_series b hwire]
  exact ⟨_, rfl, ⟨rfl, rfl, rfl, rfl, rfl, rfl⟩, rfl, rfl, rfl, rfl⟩

theorem andThen_ok {first : Except Fault (Bool × MysqlStmt)} (h : first = .ok (false, t))
    (next : MysqlStmt → Except Fault (Bool × MysqlStmt)) : andThen first next = next t := by
  rw [h]
  rfl

/-- The parts of the answer, one behind the other. -/
theorem stmtReadPrepareExecuteResponse_ok {r : PrepareExecute} (hcount : count ≠ 0)
    (hanswers : (Execution.prepareExecute r).Answers env count s) (hwire : s.mysql.wire = r.packets)
    (hfresh : s.resultCursor = []) :
    ∃ t, stmtReadPrepareExecuteResponse env s = .ok (false, t) ∧ Untouched s t ∧ t.mysql.wire = [] ∧
      t.mysql.serverStatus = r.ok.serverStatus.toNat ∧ t.fieldCount = count ∧ t.mysql.fieldCount = count ∧
      t.resultCursor = (Execution.prepareExecute r).rows := by
  obtain ⟨-, horacle, hid, hparams, hfields, haccept, hcolumns, hheader, hok⟩ := hanswers
  obtain ⟨hid4, hfield2, hparam2, hwarn2, hextend4, hrows1⟩ := r.head_loads
  have hidne : r.stmtId.toNat ≠ 0 := fun h => hid (UInt32.toNat_inj.mp h)
  have hparam : r.paramCount = 0 ↔ r.paramCount.toNat = 0 := UInt16.toNat_inj.symm
  have hlong : ¬(r.head.head? ≠ some 0 ∨ r.head.length < 17) := by
    simp [PrepareExecute.head]
    omega
  rw [stmtReadPrepareExecuteResponse, maNetSafeRead_of_head rfl (by decide) hwire]
  dsimp only
  rw [if_neg hlong, hid4, ok_bind, hfield2, ok_bind, hparam2, ok_bind, hwarn2, ok_bind, hextend4, ok_bind,
    hrows1, ok_bind, if_neg hidne, hfields]
  have hwire0 : r.packets.tail = (if r.paramCount.toNat = 0 then [] else r.params.packets) ++
      (r.columns.packets ++ ((if r.hasResultSet = 0 then [] else r.rows.packets) ++ [r.ok.bytes])) := by
    rw [PrepareExecute.packets, tail_cons]
    simp only [hparam]
  have hparams' : r.paramCount.toNat ≠ 0 → env.unpackFields r.paramCount.toNat r.params.items = true ∧
      (hasFlag r.extendFlag.toNat extendFlagReturning = true ∨ s.paramCount = r.paramCount.toNat) :=
    fun h => hparams fun hzero => h (hparam.mp hzero)
  obtain ⟨t1, h1, hu1, hw1, hf1, hc1⟩ := readParams_ok
    (s := { s with
      mysql := { s.mysql with
        wire := r.packets.tail, session := { s.mysql.session with warningCount := r.warnings.toNat } }
      stmtId := r.stmtId.toNat
      isHandleReturningInto := hasFlag r.extendFlag.toNat extendFlagReturning
      hasAddedUserFields := hasFlag r.extendFlag.toNat extendFlagAddUserField }) hwire0 hparams'
  obtain ⟨t2, h2, hu2, hw2, hf2, hm2, hc2⟩ := readColumns_ok hcount hw1 haccept (by rw [hf1]; exact hcolumns)
  obtain ⟨t3, h3, hu3, hw3, hf3, hm3, hc3⟩ := readFirst_ok (hc2.trans (hc1.trans hfresh)) hw2
  have horacle3 : t3.mysql.session.oracleMode = true :=
    ((hu1.trans hu2).trans hu3).oracleMode.trans horacle
  obtain ⟨t4, h4, hu4, hw4, hs4, hf4, hm4, hc4⟩ := readExtraOk_ok hheader hok hw3 horacle3
  refine ⟨t4, ?_, ?_, hw4, hs4, hf4.trans (hf3.trans hf2), hm4.trans (hm3.trans hm2), hc4.trans hc3⟩
  · exact (andThen_ok h1 _).trans ((andThen_ok h2 _).trans ((andThen_ok h3 _).trans h4))
  · have hu := ((hu1.trans hu2).trans hu3).trans hu4
    exact ⟨hu.replies, hu.sent, hu.oracleMode, hu.scrollable, hu.prepareExecute, hu.bound⟩

theorem prepareExecute_opens {bs : List Batch} {r : PrepareExecute}
    (hwaits : Waits (.prepareExecute r) bs s) (hcount : count ≠ 0)
    (hanswers : (Execution.prepareExecute r).Answers env count s)
    (hdescribes : s.mysql.session.oracleMode = true → ∀ b ∈ bs, b.Describes env count)
    (hcursor : hasFlag r.ok.serverStatus.toNat serverStatusCursorExists = true)
    (hcoming : Coming r.ok.serverStatus bs) :
    ∃ t, stmtReadExecuteResponse env s = .ok (0, t) ∧
      Opened env count bs (Execution.prepareExecute r).rows s t := by
  have hprepare : s.usePrepareExecute = true := hanswers.1
  obtain ⟨u, hread, hu, hwire, hstatus, hcolumns, hmysql, hrows⟩ :=
    stmtReadPrepareExecuteResponse_ok hcount hanswers hwaits.wire hwaits.fresh
  have hresponse : readResponse env s = .ok (false, u) := by
    rw [readResponse, if_pos hprepare, hread]
  obtain ⟨pieces, hopen⟩ := openRows_cursor 0 hcount
    (s := { u.takeStatus with
      state := .executed, lastErrno := 0, mysql := { u.mysql with lastErrno := 0 } })
    hmysql (.inr hcolumns) (by rw [← hstatus] at hcursor; exact hcursor)
    (.inr (hu.prepareExecute.trans hprepare))
  refine ⟨_, by rw [stmtReadExecuteResponse, hresponse]; exact hopen, ?_⟩
  refine ⟨⟨rfl, hcount, hu.scrollable.trans hwaits.plain, rfl, hwire, ?_, ?_, ⟨_, hstatus, hstatus, hcoming⟩⟩,
    .inl ⟨rfl, rfl⟩, hrows, hu.bound, hu.sent⟩
  · show u.mysql.replies = List.map (Batch.packets u.mysql.session.oracleMode) bs
    rw [hu.replies, hu.oracleMode, hwaits.replies]
  · exact fun horacle => hdescribes (hu.oracleMode.symm.trans horacle)

end Opening

/-! ## Every row, once and in order -/

/-- **Rows through a cursor**: when the answer to the execution opens a cursor and the server then sends its
batches, any number of calls hands out the rows in order, each once, and then reports that there are no
more; one command is sent for each batch. -/
theorem cursor_delivers {env : Env} {count : Nat} {s : MysqlStmt} (x : Execution) (bs : List Batch) (n : Nat)
    (hcount : count ≠ 0) (hwaits : Waits x bs s) (hanswers : x.Answers env count s)
    (hdescribes : s.mysql.session.oracleMode = true → ∀ b ∈ bs, b.Describes env count)
    (hcursor : hasFlag x.status.toNat serverStatusCursorExists = true) (hcoming : Coming x.status bs) :
    ∃ t, stmtReadExecuteResponse env s = .ok (0, t) ∧ ∃ rcs u, fetchCalls env n t = .ok (rcs, u) ∧
        RowsDelivered (x.rows ++ bs.flatMap fun b => b.rows.items) bs.length n s rcs u := by
  have hopens : ∃ t, stmtReadExecuteResponse env s = .ok (0, t) ∧ Opened env count bs x.rows s t := by
    cases x with
    | execute head columns => exact execute_opens hwaits hcount hanswers hdescribes hcursor hcoming
    | prepareExecute r => exact prepareExecute_opens hwaits hcount hanswers hdescribes hcursor hcoming
  obtain ⟨t, hread, hopened⟩ := hopens
  obtain ⟨rcs, u, hcalls, hdelivers⟩ := fetchCalls_delivers n hopened.serving hopened.isOpen
  refine ⟨t, hread, rcs, u, hcalls, ?_⟩
  rw [remaining, hopened.rows] at hdelivers
  obtain ⟨k, ⟨requests, hsent, hlen, hall⟩, hle, heq⟩ := hdelivers.asked
  exact ⟨hdelivers.length, by rw [hdelivers.bound, hopened.bound], hdelivers.success, hdelivers.noData, k,
    ⟨requests, by rw [hsent, hopened.sent], hlen, hall⟩, hle, heq⟩

/-- One column, and rows that always fit. -/
def sampleEnv : Env where
  server := ⟨false, fun _ => none⟩
  unpackFields := fun count items => items.length == count
  truncates := fun _ _ => false

/-- Packets that start with a zero, and what follows them. -/
def sampleSeries (items : List UInt8) (status : UInt16) : Series where
  items := items.map fun b => [0, b]
  warnings := 0
  status := status
  valid := by
    intro p hp
    obtain ⟨b, -, rfl⟩ := mem_map.mp hp
    exact ⟨cons_ne_nil _ _, by simp, by simp [endsRows]⟩

/-- A batch behind the description of one column. -/
def sampleBatch (rows : List UInt8) (status : UInt16) : Batch := ⟨[1], sampleSeries [0] 0, sampleSeries rows status⟩

/-- A statement that has been sent, and will be answered so. -/
def sampleStmt (oracleMode : Bool) (x : Execution) (bs : List Batch) : MysqlStmt where
  mysql := {
    session := { Session.freshSession Session.utf8 with oracleMode := oracleMode }
    status := .ready, fieldCount := 0, lastErrno := 0, sendFetchFlag := true
    wire := x.packets, replies := bs.map (Batch.packets oracleMode), sent := [] }
  state := .prepared
  stmtId := 1
  fieldCount := 0
  paramCount := 0
  prefetchRows := 1
  cursorReadOnly := true
  usePrepareExecute := oracleMode
  cursorExists := false
  scrollable := false
  orientation := 0
  fetchOffset := 0
  isHandleReturningInto := false
  hasAddedUserFields := false
  lastErrno := 0
  fetchRowFunc := none
  pieceDataUsed := []
  data := []
  rows := 0
  resultCursor := []
  upsertStatus := ⟨0, 0, 0, 0⟩
  bound := []

theorem zero_lt_limit : 0 < 256 ^ 8 := by decide

/-- An OK packet that says only what the status is. -/
def statusPacket (status : UInt16) : Session.OkPacket where
  header := 0
  affectedRows := Session.LenNum.of 0 zero_lt_limit zero_lt_limit
  insertId := Session.LenNum.of 0 zero_lt_limit zero_lt_limit
  serverStatus := status
  warningCount := 0
  tail := .none
  announced := fun h => absurd rfl h

theorem statusPacket_read (status : UInt16) (server : Session.Server) (session : Session.Mysql) :
    ∃ read, Session.maReadOkPacket server (statusPacket status).bytes session = .ok read := by
  obtain ⟨pos, hat, hread⟩ := @Session.maReadOkPacket_counters server (statusPacket status) session
  have hend : ¬pos < (statusPacket status).bytes.length := by
    have hlen := hat.length
    simp only [statusPacket, Session.Tail.bytes, length_nil] at hlen ⊢
    omega
  exact ⟨_, rfl⟩

/-- One row comes with the execution. -/
def sampleExecution : Execution :=
  .prepareExecute ⟨1, 1, 0, 0, 0, 0, 1, [], sampleSeries [] 0, sampleSeries [0] 0, sampleSeries [10] 66,
    statusPacket 66⟩

/-- Four calls for the row that came with the execution and the two rows of another batch. -/
theorem sample_rows_delivered :
    ∃ t, stmtReadExecuteResponse sampleEnv (sampleStmt true sampleExecution [sampleBatch [11, 12] 194]) = .ok (0, t) ∧
      ∃ rcs u, fetchCalls sampleEnv 4 t = .ok (rcs, u) ∧
        RowsDelivered [[0, 10], [0, 11], [0, 12]] 1 4 (sampleStmt true sampleExecution [sampleBatch [11, 12] 194]) rcs u :=
  cursor_delivers sampleExecution [sampleBatch [11, 12] 194] 4 (show 1 ≠ 0 by decide) ⟨rfl, rfl, rfl, rfl⟩
    ⟨rfl, rfl, by decide, fun h => absurd rfl h, rfl, rfl, .inl rfl, rfl, statusPacket_read 66 _⟩
    (fun _ b hb => by
      obtain rfl := mem_singleton.mp hb
      exact ⟨LenEnc.one 1 (by decide), rfl⟩)
    (by decide) (.more (by decide) (by decide) (fun h => absurd h (by simp [sampleBatch, sampleSeries]))
      (.done (by decide)))

/-- A batch with a row that announces more results, and the last batch. -/
def announcingBatches : List Batch := [sampleBatch [11] 74, sampleBatch [12] 194]

/-- **More results end the rows**: the first batch has a row and does not say that it is the last one, the
second one has a row and says so. The second call sends nothing and fails, because the status of the first
batch announces more results. -/
theorem announced_results_stop_fetch : (∀ b ∈ announcingBatches, b.rows.items ≠ []) ∧
      announcingBatches.map (fun b => hasFlag b.rows.status.toNat serverStatusLastRowSent) = [false, true] ∧
      (stmtReadExecuteResponse sampleEnv
          (sampleStmt false (.execute [1] (sampleSeries [0] 66)) announcingBatches) >>= fun r =>
        fetchCalls sampleEnv 3 r.2).map (fun r => (r.1, r.2.bound, r.2.mysql.sent.length)) =
      .ok ([0, 1, mysqlNoData], [[0, 11]], 1) := by
  refine ⟨?_, ?_, ?_⟩
  · intro b hb
    rcases mem_pair.mp hb with rfl | rfl
    · exact cons_ne_nil _ _
    · exact cons_ne_nil _ _
  · decide
  · rfl

end ObConnector.Stmt
