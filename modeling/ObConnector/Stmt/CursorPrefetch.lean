/-
# ObConnector.Stmt.CursorPrefetch -- a cursor whose batches are fetched by hand.

For a cursor that a block of PL hands out, the client fetches the batches itself.
`mysql_stmt_fetch_oracle_cursor` asks the server for the next batch and stores it in the statement, and
`mysql_stmt_fetch_oracle_buffered_result` hands one of the stored rows to the binds. The two may be called
in any order.

`mysql_stmt_fetch_oracle_cursor` shares its beginning with the functions that fetch a row: while rows are
stored it takes the first of them off the list, and then does nothing with it. A row that is received is
handed out at most once and in order whatever is called (`prefetch_keeps_rows`); it is lost exactly when a
batch is asked for while rows are stored.
-/
import ObConnector.Stmt.CursorRun

namespace ObConnector.Stmt

open Lib List

/-! ## the two calls -/

/-- A batch in answer to a request by hand: in Oracle mode the columns are in front of the rows. -/
def readPrefetchBatch (env : Env) (backStatus : MysqlStatus) (s : MysqlStmt) : Except Fault (Bool × MysqlStmt) := do
  if s.mysql.session.oracleMode then
    let (failed, m) ← mthdMyReadQueryResult env s.mysql
    if failed then return (true, { s with mysql := m, lastErrno := m.lastErrno })
    let s := allocStmtFields { s with mysql := m }
    mthdStmtReadAllRows { s with mysql := { s.mysql with status := backStatus } }
  else mthdStmtReadAllRows s

/-- `do_stmt_read_row_from_oracle_cursor`. The row is only set where one is taken off the list. -/
def doStmtReadRowFromOracleCursor (env : Env) (s : MysqlStmt) : Except Fault (Int × Option Packet × MysqlStmt) :=
  if s.resultCursor ≠ [] then .ok (stmtBufferedFetch s)
  else if hasFlag s.upsertStatus.serverStatus serverStatusLastRowSent then
    .ok (mysqlNoData, none, s.clearLastRowSent)
  else
    match mthdMySendCmd s.mysql ⟨comStmtFetch, leBytes 4 s.stmtId ++ leBytes 4 s.prefetchRows⟩ with
    | (true, m) => .ok (1, none, { s with mysql := m, lastErrno := m.lastErrno })
    | (false, m) => do
      let (failed, s) ← readPrefetchBatch env s.mysql.status (s.dropRows m)
      if failed then return (1, none, s)
      return (0, none, { s with upsertStatus := { s.upsertStatus with serverStatus := s.mysql.serverStatus } })

/-- A fetch that is over. -/
def MysqlStmt.fetchOver (s : MysqlStmt) : MysqlStmt :=
  { s with state := .fetchDone, mysql := { s.mysql with status := .ready } }

/-- A fetch that goes on; the errors are cleared. -/
def MysqlStmt.fetchGoesOn (s : MysqlStmt) : MysqlStmt :=
  { s with state := .userFetching, lastErrno := 0, mysql := { s.mysql with lastErrno := 0 } }

/-- `mysql_stmt_fetch_oracle_cursor`. -/
def mysqlStmtFetchOracleCursor (env : Env) (s : MysqlStmt) : Except Fault (Int × MysqlStmt) := do
  let (rc, _, s) ← doStmtReadRowFromOracleCursor env s
  if rc ≠ 0 then return (rc, s.fetchOver)
  return (rc, s.fetchGoesOn)

/-- `CR_STATUS_ERROR_FETCH_ORACLE_BUFFERED_RESULT`. -/
def crStatusErrorFetchOracleBufferedResult : Nat := 8005

/-- `mysql_stmt_fetch_oracle_buffered_result`. -/
def mysqlStmtFetchOracleBufferedResult (env : Env) (s : MysqlStmt) : Int × MysqlStmt :=
  if s.state.code ≤ StmtState.executed.code then (1, { s with lastErrno := crStatusErrorFetchOracleBufferedResult })
  else
    match stmtBufferedFetch s with
    | (0, some row, s) =>
      let (rc, s) := mthdStmtFetchToBind env row s
      (rc, s.fetchGoesOn)
    | (rc, _, s) => (rc, s.fetchOver)

/-! ## sequences of calls -/

/-- The calls a client may make. -/
inductive PrefetchCall where
  | cursor
  | buffered
  deriving DecidableEq, Repr

/-- What has happened: the rows that have been stored, one batch after the other, and how many batches
were asked for while rows were stored. -/
structure PrefetchLog where
  received : List Packet
  whileStored : Nat
  deriving DecidableEq, Repr

/-- A call of a client. -/
def prefetchCall (env : Env) (call : PrefetchCall) (s : MysqlStmt) (log : PrefetchLog) :
    Except Fault (MysqlStmt × PrefetchLog) :=
  match call with
  | .cursor => do
    let (_, t) ← mysqlStmtFetchOracleCursor env s
    if s.resultCursor = [] then return (t, { log with received := log.received ++ t.resultCursor })
    else return (t, { log with whileStored := log.whileStored + 1 })
  | .buffered => .ok ((mysqlStmtFetchOracleBufferedResult env s).2, log)

/-- Call after call, whatever they return. -/
def prefetchCalls (env : Env) : List PrefetchCall → MysqlStmt → PrefetchLog → Except Fault (MysqlStmt × PrefetchLog)
  | [], s, log => .ok (s, log)
  | call :: calls, s, log => do
    let (s, log) ← prefetchCall env call s log
    prefetchCalls env calls s log

/-! ## what a call does to the rows -/

variable {env : Env} {s t : MysqlStmt} {log log' : PrefetchLog}

theorem mthdStmtReadAllRows_bound {failed : Bool} (h : mthdStmtReadAllRows s = .ok (failed, t)) : t.bound = s.bound := by
  unfold mthdStmtReadAllRows at h
  split at h
  · cases h
    rfl
  obtain ⟨warningCount, _, h⟩ := bind_eq_ok.mp h
  obtain ⟨serverStatus, _, h⟩ := bind_eq_ok.mp h
  cases h
  rfl

theorem allocStmtFields_bound (s : MysqlStmt) : (allocStmtFields s).bound = s.bound := by
  unfold allocStmtFields
  split <;> rfl

theorem readPrefetchBatch_bound {backStatus : MysqlStatus} {failed : Bool}
    (h : readPrefetchBatch env backStatus s = .ok (failed, t)) : t.bound = s.bound := by
  unfold readPrefetchBatch at h
  split at h
  · obtain ⟨⟨failed', m⟩, _, h⟩ := bind_eq_ok.mp h
    cases failed' with
    | true =>
      cases h
      rfl
    | false =>
      have hbound := mthdStmtReadAllRows_bound h
      exact hbound.trans (allocStmtFields_bound _)
  · exact mthdStmtReadAllRows_bound h

/-- Asking for a batch binds nothing; while rows are stored it takes the first of them off the list. -/
theorem fetchOracleCursor_rows {rc : Int} (h : mysqlStmtFetchOracleCursor env s = .ok (rc, t)) :
    t.bound = s.bound ∧ ∀ row rows, s.resultCursor = row :: rows → t.resultCursor = rows := by
  obtain ⟨⟨rc', row', u⟩, hread, h⟩ := bind_eq_ok.mp h
  dsimp only at h
  have hsame : t.bound = u.bound ∧ t.resultCursor = u.resultCursor := by
    by_cases hrc : rc' ≠ 0
    · rw [if_pos hrc] at h
      cases h
      exact ⟨rfl, rfl⟩
    rw [if_neg hrc] at h
    cases h
    exact ⟨rfl, rfl⟩
  rw [hsame.1, hsame.2]
  unfold doStmtReadRowFromOracleCursor at hread
  cases hrows : s.resultCursor with
  | cons row rows =>
    rw [stmtBufferedFetch, hrows] at hread
    cases hread
    refine ⟨rfl, ?_⟩
    intro row'' rows'' heq
    exact (List.cons.inj heq).2
  | nil =>
    refine ⟨?_, fun row rows heq => by cases heq⟩
    rw [if_neg (by rw [hrows]; exact not_not.mpr rfl)] at hread
    split at hread
    · cases hread
      rfl
    split at hread
    · cases hread
      rfl
    obtain ⟨⟨failed, v⟩, hbatch, hread⟩ := bind_eq_ok.mp hread
    have hbound : v.bound = s.bound := (readPrefetchBatch_bound hbatch).trans rfl
    cases failed with
    | true =>
      cases hread
      exact hbound
    | false =>
      cases hread
      exact hbound

/-- A call for a stored row binds the first one, if there is one and the statement has been executed. -/
theorem fetchBufferedResult_rows (env : Env) (s : MysqlStmt) :
    ((mysqlStmtFetchOracleBufferedResult env s).2.bound = s.bound ∧
        (mysqlStmtFetchOracleBufferedResult env s).2.resultCursor = s.resultCursor) ∨
      ∃ row rows, s.resultCursor = row :: rows ∧
        (mysqlStmtFetchOracleBufferedResult env s).2.bound = s.bound ++ [row] ∧
        (mysqlStmtFetchOracleBufferedResult env s).2.resultCursor = rows := by
  unfold mysqlStmtFetchOracleBufferedResult
  by_cases hstate : s.state.code ≤ StmtState.executed.code
  · rw [if_pos hstate]
    exact .inl ⟨rfl, rfl⟩
  rw [if_neg hstate, stmtBufferedFetch]
  cases hrows : s.resultCursor with
  | nil => exact .inl ⟨rfl, rfl⟩
  | cons row rows => exact .inr ⟨row, rows, rfl, rfl, rfl⟩

/-! ## what a sequence of calls does -/

/-- The rows that were handed out since `base` and those that are stored are among the received ones, in
their order, and each call for a batch while rows were stored has cost one row. -/
def RowsKept (base : List Packet) (s : MysqlStmt) (log : PrefetchLog) : Prop :=
  ∃ delivered, s.bound = base ++ delivered ∧ (delivered ++ s.resultCursor).Sublist log.received ∧
    log.received.length = (delivered ++ s.resultCursor).length + log.whileStored

theorem rowsKept_step {base : List Packet} (call : PrefetchCall) (h : RowsKept base s log)
    (hcall : prefetchCall env call s log = .ok (t, log')) : RowsKept base t log' := by
  obtain ⟨delivered, hbound, hsub, hlen⟩ := h
  cases call with
  | cursor =>
    obtain ⟨⟨rc, u⟩, hfetch, hcall⟩ := bind_eq_ok.mp hcall
    dsimp only at hcall
    obtain ⟨hsame, hdrop⟩ := fetchOracleCursor_rows hfetch
    cases hrows : s.resultCursor with
    | nil =>
      -- a batch is stored behind what has been handed out
      rw [if_pos hrows] at hcall
      cases hcall
      rw [hrows, append_nil] at hsub hlen
      refine ⟨delivered, hsame.trans hbound, hsub.append (List.Sublist.refl _), ?_⟩
      simp only [length_append]
      omega
    | cons row rows =>
      rw [if_neg (by rw [hrows]; exact cons_ne_nil _ _)] at hcall
      cases hcall
      rw [hrows] at hsub hlen
      refine ⟨delivered, hsame.trans hbound, ?_, ?_⟩
      · rw [hdrop row rows hrows]
        exact ((List.Sublist.refl delivered).append (sublist_cons_self row rows)).trans hsub
      · rw [hdrop row rows hrows]
        simp only [length_append, length_cons] at hlen ⊢
        omega
  | buffered =>
    cases hcall
    rcases fetchBufferedResult_rows env s with ⟨hsame, hstored⟩ | ⟨row, rows, hrows, hnew, hstored⟩
    · exact ⟨delivered, hsame.trans hbound, by rwa [hstored], by rwa [hstored]⟩
    rw [hrows] at hsub hlen
    refine ⟨delivered ++ [row], by rw [hnew, hbound, append_assoc], ?_, ?_⟩
    · rwa [hstored, append_assoc]
    · rwa [hstored, append_assoc]

theorem rowsKept_run {base : List Packet} (calls : List PrefetchCall) (h : RowsKept base s log)
    (hrun : prefetchCalls env calls s log = .ok (t, log')) : RowsKept base t log' := by
  induction calls generalizing s log with
  | nil =>
    cases hrun
    exact h
  | cons call calls ih =>
    obtain ⟨⟨u, mid⟩, hcall, hrun⟩ := bind_eq_ok.mp hrun
    exact ih (rowsKept_step call h hcall) hrun

/-! ## a server that sends batches -/

/-- The server will answer the requests for batches with these. -/
structure Supplied (env : Env) (bs : List Batch) (s : MysqlStmt) : Prop where
  wire : s.mysql.wire = []
  replies : s.mysql.replies = bs.map (Batch.packets s.mysql.session.oracleMode)
  described : s.mysql.session.oracleMode = true → ∀ b ∈ bs, ∃ count, count ≠ 0 ∧ b.Describes env count

/-- The rows of some batches. -/
def rowsOf (bs : List Batch) : List Packet := bs.flatMap fun b => b.rows.items

/-- The rows of a batch that is on the wire are stored. -/
theorem readPrefetchBatch_batch {b : Batch} {backStatus : MysqlStatus}
    (hdescribed : s.mysql.session.oracleMode = true → ∃ count, count ≠ 0 ∧ b.Describes env count)
    (hwire : s.mysql.wire = b.packets s.mysql.session.oracleMode) :
    ∃ t, readPrefetchBatch env backStatus s = .ok (false, t) ∧ t.resultCursor = b.rows.items ∧ t.mysql.wire = [] ∧
      t.mysql.replies = s.mysql.replies ∧ t.mysql.session.oracleMode = s.mysql.session.oracleMode := by
  unfold readPrefetchBatch
  cases hmode : s.mysql.session.oracleMode with
  | false =>
    rw [hmode] at hwire
    have hrows := @mthdStmtReadAllRows_series [] s b.rows (by rw [hwire, append_nil]; rfl)
    rw [hrows]
    exact ⟨_, rfl, rfl, rfl, rfl, hmode⟩
  | true =>
    rw [hmode] at hwire
    obtain ⟨count, hcount, hhead, haccept⟩ := hdescribed hmode
    have hfields := mthdMyReadQueryResult_columns b.columns hhead hcount hwire haccept
    rw [hfields, ok_bind]
    dsimp only
    rw [allocStmtFields, if_neg hcount]
    rw [mthdStmtReadAllRows_series b.rows (append_nil _).symm]
    exact ⟨_, rfl, rfl, rfl, rfl, hmode⟩

/-- Nothing is stored when the server has nothing more to send. -/
theorem readPrefetchBatch_none {backStatus : MysqlStatus} (hwire : s.mysql.wire = []) (hrows : s.resultCursor = []) :
    ∃ t, readPrefetchBatch env backStatus s = .ok (true, t) ∧ t.resultCursor = [] ∧ t.mysql.wire = [] ∧
      t.mysql.replies = s.mysql.replies ∧ t.mysql.session.oracleMode = s.mysql.session.oracleMode := by
  have hread : maNetSafeRead s.mysql = (none, { s.mysql with wire := [], lastErrno := crServerLost }) := by
    rw [maNetSafeRead, hwire]
  unfold readPrefetchBatch
  cases hmode : s.mysql.session.oracleMode with
  | false =>
    rw [mthdStmtReadAllRows, readPackets, hread]
    exact ⟨_, rfl, rfl, rfl, rfl, hmode⟩
  | true =>
    rw [mthdMyReadQueryResult, hread]
    exact ⟨_, rfl, hrows, rfl, rfl, hmode⟩

theorem read_refused {m : Conn} (hstored : s.resultCursor = [])
    (hlast : ¬hasFlag s.upsertStatus.serverStatus serverStatusLastRowSent = true)
    (hsend : mthdMySendCmd s.mysql ⟨comStmtFetch, leBytes 4 s.stmtId ++ leBytes 4 s.prefetchRows⟩ = (true, m)) :
    doStmtReadRowFromOracleCursor env s = .ok (1, none, { s with mysql := m, lastErrno := m.lastErrno }) := by
  rw [doStmtReadRowFromOracleCursor, if_neg (not_not.mpr hstored), if_neg hlast, hsend]

theorem read_answered {m : Conn} {failed : Bool} {u : MysqlStmt} (hstored : s.resultCursor = [])
    (hlast : ¬hasFlag s.upsertStatus.serverStatus serverStatusLastRowSent = true)
    (hsend : mthdMySendCmd s.mysql ⟨comStmtFetch, leBytes 4 s.stmtId ++ leBytes 4 s.prefetchRows⟩ = (false, m))
    (hbatch : readPrefetchBatch env s.mysql.status (s.dropRows m) = .ok (failed, u)) :
    doStmtReadRowFromOracleCursor env s = if failed then .ok (1, none, u) else
      .ok (0, none, { u with upsertStatus := { u.upsertStatus with serverStatus := u.mysql.serverStatus } }) := by
  rw [doStmtReadRowFromOracleCursor, if_neg (not_not.mpr hstored), if_neg hlast, hsend]
  dsimp only
  rw [hbatch]
  rfl

/-- The result of a call is the result of its reading, whatever it returns. -/
theorem fetchOracleCursor_of_read {rc : Int} {row : Option Packet} {u : MysqlStmt}
    (h : doStmtReadRowFromOracleCursor env s = .ok (rc, row, u)) :
    ∃ rc' t, mysqlStmtFetchOracleCursor env s = .ok (rc', t) ∧ t.resultCursor = u.resultCursor ∧
      t.mysql.wire = u.mysql.wire ∧ t.mysql.replies = u.mysql.replies ∧ t.mysql.session = u.mysql.session := by
  rw [mysqlStmtFetchOracleCursor, h]
  by_cases hrc : rc ≠ 0
  · exact ⟨_, _, if_pos hrc, rfl, rfl, rfl, rfl⟩
  · exact ⟨_, _, if_neg hrc, rfl, rfl, rfl, rfl⟩

variable {bs : List Batch}

/-- A statement that differs only in other parts is supplied as well. -/
theorem Supplied.of_same {bs' : List Batch} (h : Supplied env bs s) (hsub : ∀ b ∈ bs', b ∈ bs)
    (hwire : t.mysql.wire = []) (hmode : t.mysql.session.oracleMode = s.mysql.session.oracleMode)
    (hreplies : t.mysql.replies = bs'.map (Batch.packets s.mysql.session.oracleMode)) : Supplied env bs' t where
  wire := hwire
  replies := by rw [hmode, hreplies]
  described := by
    intro horacle b hb
    exact h.described (hmode ▸ horacle) b (hsub b hb)

/-- A call for a batch returns; while none of the rows is stored, it stores the next batch or nothing. -/
theorem fetchOracleCursor_returns (h : Supplied env bs s) :
    ∃ rc t k, mysqlStmtFetchOracleCursor env s = .ok (rc, t) ∧ Supplied env (bs.drop k) t ∧
      (s.resultCursor = [] → t.resultCursor = rowsOf (bs.take k)) ∧ (s.resultCursor ≠ [] → k = 0) := by
  -- the reading, in the order of the tests
  obtain ⟨rc, row, u, k, hread, hwire, hreplies, hmode, hrows, hk⟩ : ∃ rc row u k,
      doStmtReadRowFromOracleCursor env s = .ok (rc, row, u) ∧ u.mysql.wire = [] ∧
      u.mysql.replies = s.mysql.replies.drop k ∧ u.mysql.session.oracleMode = s.mysql.session.oracleMode ∧
      (s.resultCursor = [] → u.resultCursor = rowsOf (bs.take k)) ∧ (s.resultCursor ≠ [] → k = 0) := by
    by_cases hstored : s.resultCursor ≠ []
    · refine ⟨_, _, _, 0, by rw [doStmtReadRowFromOracleCursor, if_pos hstored], ?_, ?_, ?_,
        fun hnil => absurd hnil hstored, fun _ => rfl⟩
      all_goals
        unfold stmtBufferedFetch
        split <;> first | exact h.wire | rfl
    rw [not_not] at hstored
    by_cases hlast : hasFlag s.upsertStatus.serverStatus serverStatusLastRowSent = true
    · refine ⟨mysqlNoData, none, s.clearLastRowSent, 0, ?_, h.wire, rfl, rfl, fun hnil => hnil, fun _ => rfl⟩
      rw [doStmtReadRowFromOracleCursor, if_neg (not_not.mpr hstored), if_pos hlast]
    cases hsend : mthdMySendCmd s.mysql ⟨comStmtFetch, leBytes 4 s.stmtId ++ leBytes 4 s.prefetchRows⟩ with
    | mk refused m =>
      have hsent := hsend
      unfold mthdMySendCmd at hsent
      split at hsent
      · cases hsent
        exact ⟨1, none, _, 0, read_refused hstored hlast hsend, h.wire, rfl, rfl, fun hnil => hnil, fun _ => rfl⟩
      obtain ⟨hwire, hreplies, hsession⟩ :
          m.wire = s.mysql.replies.headD [] ∧ m.replies = s.mysql.replies.drop 1 ∧ m.session = s.mysql.session := by
        cases hsent
        exact ⟨by rw [h.wire, nil_append], drop_one.symm, rfl⟩
      have hrefused : refused = false := by
        cases hsent
        rfl
      subst hrefused
      have hmode : m.session.oracleMode = s.mysql.session.oracleMode := by rw [hsession]
      rw [h.replies] at hwire
      cases bs with
      | nil =>
        obtain ⟨u, hbatch, hrows, huwire, hureplies, humode⟩ :=
          @readPrefetchBatch_none env (s.dropRows m) s.mysql.status hwire hstored
        exact ⟨_, _, u, 1, read_answered hstored hlast hsend hbatch, huwire, hureplies.trans hreplies,
          humode.trans hmode, fun _ => hrows, fun hne => absurd hstored hne⟩
      | cons b bs =>
        obtain ⟨u, hbatch, hrows, huwire, hureplies, humode⟩ :=
          @readPrefetchBatch_batch env (s.dropRows m) b s.mysql.status
            (fun horacle => h.described (hmode ▸ horacle) b mem_cons_self)
            (by rw [show (s.dropRows m).mysql = m from rfl, hmode]; exact hwire)
        exact ⟨_, _, _, 1, read_answered hstored hlast hsend hbatch, huwire, hureplies.trans hreplies,
          humode.trans hmode, fun _ => hrows.trans (append_nil _).symm, fun hne => absurd hstored hne⟩
  obtain ⟨rc', t, ht, hcursor, hwire', hreplies', hsession'⟩ := fetchOracleCursor_of_read hread
  refine ⟨rc', t, k, ht, h.of_same (fun b hb => mem_of_mem_drop hb) (hwire'.trans hwire) ?_ ?_,
    fun hnil => hcursor.trans (hrows hnil), hk⟩
  · rw [hsession', hmode]
  · rw [hreplies', hreplies, h.replies, map_drop]

theorem fetchBufferedResult_supplied (h : Supplied env bs s) :
    Supplied env bs (mysqlStmtFetchOracleBufferedResult env s).2 := by
  have hmysql : (mysqlStmtFetchOracleBufferedResult env s).2.mysql.wire = s.mysql.wire ∧
      (mysqlStmtFetchOracleBufferedResult env s).2.mysql.replies = s.mysql.replies ∧
      (mysqlStmtFetchOracleBufferedResult env s).2.mysql.session = s.mysql.session := by
    unfold mysqlStmtFetchOracleBufferedResult stmtBufferedFetch
    by_cases hstate : s.state.code ≤ StmtState.executed.code
    · rw [if_pos hstate]
      exact ⟨rfl, rfl, rfl⟩
    rw [if_neg hstate]
    cases s.resultCursor with
    | nil => exact ⟨rfl, rfl, rfl⟩
    | cons row rows => exact ⟨rfl, rfl, rfl⟩
  obtain ⟨hwire, hreplies, hsession⟩ := hmysql
  exact h.of_same (fun b hb => hb) (hwire.trans h.wire) (by rw [hsession]) (hreplies.trans h.replies)

/-- Every sequence of calls comes to its end, and what is received are the rows of the first batches. -/
theorem prefetchCalls_returns (calls : List PrefetchCall) (h : Supplied env bs s) (log : PrefetchLog) :
    ∃ t log' k, prefetchCalls env calls s log = .ok (t, log') ∧ log'.received = log.received ++ rowsOf (bs.take k) := by
  induction calls generalizing s bs log with
  | nil => exact ⟨s, log, 0, rfl, by simp [rowsOf]⟩
  | cons call calls ih =>
    cases call with
    | buffered =>
      obtain ⟨t, log', k, hrun, hreceived⟩ := ih (fetchBufferedResult_supplied h) log
      exact ⟨t, log', k, hrun, hreceived⟩
    | cursor =>
      obtain ⟨rc, u, k, hfetch, hu, hrows, hnone⟩ := fetchOracleCursor_returns h
      rw [prefetchCalls, prefetchCall, hfetch, ok_bind]
      dsimp only
      by_cases hstored : s.resultCursor = []
      · obtain ⟨t, log', k', hrun, hreceived⟩ := ih hu { log with received := log.received ++ u.resultCursor }
        refine ⟨t, log', k + k', by rw [if_pos hstored]; exact hrun, ?_⟩
        rw [hreceived, hrows hstored, append_assoc, rowsOf, rowsOf, rowsOf, ← flatMap_append, take_add]
      rw [hnone hstored] at hu
      obtain ⟨t, log', k', hrun, hreceived⟩ := ih hu { log with whileStored := log.whileStored + 1 }
      exact ⟨t, log', k', by rw [if_neg hstored]; exact hrun, hreceived⟩

/-- **Whatever is called, the rows are handed out in order and at most once; none is lost exactly when no
batch is asked for while rows are stored.** -/
theorem prefetch_keeps_rows (env : Env) (bs : List Batch) (calls : List PrefetchCall) (s : MysqlStmt)
    (hsupplied : Supplied env bs s) :
    ∃ t log, prefetchCalls env calls s ⟨s.resultCursor, 0⟩ = .ok (t, log) ∧
      (∃ k, log.received = s.resultCursor ++ rowsOf (bs.take k)) ∧
      ∃ delivered, t.bound = s.bound ++ delivered ∧ (delivered ++ t.resultCursor).Sublist log.received ∧
        (delivered ++ t.resultCursor = log.received ↔ log.whileStored = 0) := by
  obtain ⟨t, log, k, hrun, hreceived⟩ := prefetchCalls_returns calls hsupplied ⟨s.resultCursor, 0⟩
  have hstart : RowsKept s.bound s ⟨s.resultCursor, 0⟩ :=
    ⟨[], (append_nil _).symm, List.Sublist.refl _, rfl⟩
  obtain ⟨delivered, hbound, hsub, hlen⟩ := rowsKept_run calls hstart hrun
  refine ⟨t, log, hrun, ⟨k, hreceived⟩, delivered, hbound, hsub, ?_⟩
  constructor
  · intro heq
    rw [heq] at hlen
    omega
  · intro hzero
    exact hsub.eq_of_length (by omega)

/-- A statement whose cursor has a batch of two rows on the server. -/
def prefetchStmt : MysqlStmt :=
  { sampleStmt true sampleExecution [sampleBatch [11, 12] 194] with
    mysql := { (sampleStmt true sampleExecution [sampleBatch [11, 12] 194]).mysql with wire := [] }, state := .executed }

theorem prefetchStmt_supplied : Supplied sampleEnv [sampleBatch [11, 12] 194] prefetchStmt where
  wire := rfl
  replies := rfl
  described := by
    intro _ b hb
    obtain rfl := mem_singleton.mp hb
    exact ⟨1, by decide, LenEnc.one 1 (by decide), rfl⟩

/-- The batch is stored, and its two rows are handed out. -/
theorem prefetch_two_rows : Supplied sampleEnv [sampleBatch [11, 12] 194] prefetchStmt ∧
      ∃ t log, prefetchCalls sampleEnv [.cursor, .buffered, .buffered] prefetchStmt ⟨[], 0⟩ = .ok (t, log) ∧
        ∃ delivered, t.bound = prefetchStmt.bound ++ delivered ∧ (delivered ++ t.resultCursor).Sublist log.received := by
  refine ⟨prefetchStmt_supplied, ?_⟩
  obtain ⟨t, log, hrun, -, delivered, hbound, hsub, -⟩ :=
    prefetch_keeps_rows sampleEnv _ [.cursor, .buffered, .buffered] prefetchStmt prefetchStmt_supplied
  exact ⟨t, log, hrun, delivered, hbound, hsub⟩

/-- Asking for a batch a second time loses the first row. -/
theorem second_request_loses_row :
    (prefetchCalls sampleEnv [.cursor, .cursor, .buffered, .buffered] prefetchStmt ⟨[], 0⟩).map
        (fun r => (r.1.bound, r.1.resultCursor, r.2.received)) =
      .ok ([[0, 12]], [], [[0, 11], [0, 12]]) := by
  rfl

end ObConnector.Stmt
