/-
# ObConnector.Stmt.CursorFetch -- rows through a cursor on the server.

After the execution of a statement that opened a cursor, the rows come in batches. `mysql_stmt_fetch`
hands out one row a call. It takes it from the rows that are already here (`resultCursor`, the rest of
the linked list that `result_cursor` points into), and asks the server for the next batch with
`COM_STMT_FETCH` when there are none left. Whether the last batch has been here is told by the bit
`SERVER_STATUS_LAST_ROW_SENT` of the status that came with it, which the client clears when it acts on it.

In Oracle mode a batch comes behind a description of the columns, and the rows of the first batch can
come with the answer to the execution itself, between that description and an OK packet.

The connection is the packets that are still to be read, the answers that the server will give, and the
commands it has been sent. What a row means to the bound variables is not looked at: the statement
remembers the rows in the order in which they went to `mthd_stmt_fetch_to_bind`.
-/
import ObConnector.Session.Tracking

namespace ObConnector.Stmt

open Lib

/-! ## The statement and its connection -/

/-- `enum_mysqlnd_stmt_state`. -/
inductive StmtState where
  | initted
  | prepared
  | executed
  | waitingUseOrStore
  | useOrStoreCalled
  | userFetching
  | fetchDone
  deriving DecidableEq, Repr

/-- The states are compared by their numbers. -/
def StmtState.code : StmtState → Nat
  | .initted => 0
  | .prepared => 1
  | .executed => 2
  | .waitingUseOrStore => 3
  | .useOrStoreCalled => 4
  | .userFetching => 5
  | .fetchDone => 6

/-- `mysql->status`, as far as statements set it. -/
inductive MysqlStatus where
  | ready
  | getResult
  | stmtResult
  deriving DecidableEq, Repr

/-- `fetch_row_func`. -/
inductive FetchRowFunc where
  | buffered
  | unbuffered
  | unbufferedEof
  | cursor
  deriving DecidableEq, Repr

/-- The bytes of a packet, without its header. -/
abbrev Packet : Type := List UInt8

/-- A command and its argument. -/
structure Request where
  command : Nat
  arg : List UInt8
  deriving DecidableEq, Repr

/-- `COM_STMT_FETCH`. -/
def comStmtFetch : Nat := 28

/-- `SERVER_STATUS_IN_TRANS`. -/
def serverStatusInTrans : Nat := 1

/-- `SERVER_STATUS_AUTOCOMMIT`. -/
def serverStatusAutocommit : Nat := 2

/-- `SERVER_MORE_RESULTS_EXIST`. -/
def serverMoreResultsExist : Nat := 8

/-- `SERVER_STATUS_CURSOR_EXISTS`. -/
def serverStatusCursorExists : Nat := 64

/-- `SERVER_STATUS_LAST_ROW_SENT`. -/
def serverStatusLastRowSent : Nat := 128

/-- `SERVER_PS_OUT_PARAMS`. -/
def serverPsOutParams : Nat := 4096

/-- A bit of a status. -/
def hasFlag (status flag : Nat) : Bool := status &&& flag != 0

/-- The status, an `unsigned int`, without a bit. -/
def clearFlag (status flag : Nat) : Nat := status &&& (2 ^ 32 - 1 - flag)

/-- The connection of a statement. -/
structure Conn where
  session : Session.Mysql
  status : MysqlStatus
  fieldCount : Nat
  lastErrno : Nat
  /-- the server is new enough for `get_support_send_fetch_flag` -/
  sendFetchFlag : Bool
  /-- the packets that are here and not read yet -/
  wire : List Packet
  /-- what the server will answer to the commands to come -/
  replies : List (List Packet)
  /-- the commands so far -/
  sent : List Request

/-- `mysql->server_status`. -/
def Conn.serverStatus (m : Conn) : Nat := m.session.serverStatus

/-- A new `mysql->server_status`. -/
def Conn.setServerStatus (m : Conn) (status : Nat) : Conn :=
  { m with session := { m.session with serverStatus := status } }

/-- `upsert_status`. -/
structure UpsertStatus where
  affectedRows : Nat
  lastInsertId : Nat
  serverStatus : Nat
  warningCount : Nat
  deriving DecidableEq, Repr

/-- `MYSQL_STMT`, as far as fetching uses it. -/
structure MysqlStmt where
  mysql : Conn
  state : StmtState
  stmtId : Nat
  fieldCount : Nat
  paramCount : Nat
  prefetchRows : Nat
  /-- `flags & CURSOR_TYPE_READ_ONLY` -/
  cursorReadOnly : Bool
  usePrepareExecute : Bool
  cursorExists : Bool
  /-- `execute_mode & EXECUTE_STMT_SCROLLABLE_READONLY` -/
  scrollable : Bool
  orientation : Nat
  fetchOffset : Nat
  isHandleReturningInto : Bool
  hasAddedUserFields : Bool
  lastErrno : Nat
  fetchRowFunc : Option FetchRowFunc
  /-- `piece_data_used` of the bound variables -/
  pieceDataUsed : List Bool
  /-- `result.data` -/
  data : List Packet
  /-- `result.rows` -/
  rows : Nat
  /-- the rows from `result_cursor` on -/
  resultCursor : List Packet
  upsertStatus : UpsertStatus
  /-- the rows that have gone to `mthd_stmt_fetch_to_bind` -/
  bound : List Packet

/-- What the other parts of the driver decide about packets. -/
structure Env where
  server : Session.Server
  /-- `mthd_my_read_rows` and `unpack_fields` find that many columns in the descriptions -/
  unpackFields : Nat → List Packet → Bool
  /-- a row does not fit the bound variables, after the rows before it -/
  truncates : List Packet → Packet → Bool

/-! ## Packets and commands -/

/-- `CR_SERVER_LOST`. -/
def crServerLost : Nat := 2013

/-- `CR_UNKNOWN_ERROR`. -/
def crUnknownError : Nat := 2000

/-- `CR_MALFORMED_PACKET`. -/
def crMalformedPacket : Nat := 2027

/-- `CR_STATUS_ERROR_NOT_READY`. -/
def crStatusErrorNotReady : Nat := 8000

/-- The number in an error packet. -/
def errnoOf (p : Packet) : Nat := if 3 < p.length then leNat ((p.drop 1).take 2) else crUnknownError

/-- `ma_net_safe_read`: the next packet, unless there is none, it is empty or it is an error. -/
def maNetSafeRead (m : Conn) : Option Packet × Conn :=
  match m.wire with
  | [] => (none, { m with lastErrno := crServerLost })
  | p :: wire =>
    if p = [] then (none, { m with wire := wire, lastErrno := crServerLost })
    else if p.head? = some 255 then
      (none, { m.setServerStatus (clearFlag m.serverStatus serverMoreResultsExist) with
        wire := wire, lastErrno := errnoOf p })
    else (some p, { m with wire := wire })

/-- `mthd_my_send_cmd`; `true` is a failure. A command is not sent while a result is being read or more
results have been announced. -/
def mthdMySendCmd (m : Conn) (request : Request) : Bool × Conn :=
  if m.status ≠ .ready ∨ hasFlag m.serverStatus serverMoreResultsExist then
    (true, { m with lastErrno := crStatusErrorNotReady })
  else
    (false, { m with
      lastErrno := 0
      sent := m.sent ++ [request]
      wire := m.wire ++ m.replies.headD []
      replies := m.replies.tail })

/-- The packet that ends a series of rows. -/
def endsRows (p : Packet) : Bool := p.length ≤ 7 && p.head? == some 254

/-- Rows up to the packet that ends them, or to the first packet that cannot be read. -/
def readPackets : Nat → Conn → List Packet × Option Packet × Conn
  | 0, m => ([], none, m)
  | n + 1, m =>
    match maNetSafeRead m with
    | (none, m) => ([], none, m)
    | (some p, m) =>
      if endsRows p then ([], some p, m)
      else
        let (rows, stop, m) := readPackets n m
        (p :: rows, stop, m)

/-- `mthd_my_read_rows` and `unpack_fields`: the descriptions of `count` columns; `true` is a failure. -/
def readDefinitions (env : Env) (count : Nat) (m : Conn) : Except Fault (Bool × Conn) :=
  match readPackets (m.wire.length + 1) m with
  | (_, none, m) => .ok (true, m)
  | (definitions, some stop, m) =>
    if 1 < stop.length then do
      let warningCount ← loadNat stop 1 2
      let serverStatus ← loadNat stop 3 2
      let session := { m.session with warningCount := warningCount, serverStatus := serverStatus }
      return (!env.unpackFields count definitions, { m with session := session })
    else return (!env.unpackFields count definitions, m)

/-- In a transaction, unless statements are committed by themselves. -/
def Conn.enterTrans (m : Conn) : Conn :=
  if hasFlag m.serverStatus serverStatusAutocommit then m
  else m.setServerStatus (m.serverStatus ||| serverStatusInTrans)

/-- The columns of a result; the status of the connection says that they are here. -/
def readFields (env : Env) (count : Nat) (m : Conn) : Except Fault (Bool × Conn) := do
  let (failed, m) ← readDefinitions env count m.enterTrans
  return (failed, if failed then m else { m with status := .getResult, fieldCount := count })

/-- `mthd_my_read_query_result`; `true` is a failure. A request for a local file is one, too: it is no
answer to the commands of this module. -/
def mthdMyReadQueryResult (env : Env) (m : Conn) : Except Fault (Bool × Conn) :=
  match maNetSafeRead m with
  | (none, m) => .ok (true, m)
  | (some p, m) => do
    let m := { m with fieldCount := 0 }
    let (fieldCount, _) ← readLength p 0
    if fieldCount = 0 then do
      let (session, ret) ← Session.maReadOkPacket env.server p m.session
      return (ret ≠ 0, { m with session := session })
    else if fieldCount = nullLength then .ok (true, m)
    else readFields env fieldCount m

/-! ## The answer to an execution -/

/-- Steps in a row; a step that fails is the last one. -/
def andThen (first : Except Fault (Bool × MysqlStmt)) (next : MysqlStmt → Except Fault (Bool × MysqlStmt)) :
    Except Fault (Bool × MysqlStmt) := do
  let (failed, s) ← first
  if failed then .ok (true, s) else next s

/-- A step of the connection. -/
def onConn (f : Conn → Except Fault (Bool × Conn)) (s : MysqlStmt) : Except Fault (Bool × MysqlStmt) := do
  let (failed, m) ← f s.mysql
  return (failed, { s with mysql := m })

/-- The packet cannot be what was expected. -/
def MysqlStmt.malformed (s : MysqlStmt) : Bool × MysqlStmt :=
  (true, { s with mysql := { s.mysql with lastErrno := crMalformedPacket } })

/-- `madb_alloc_stmt_fields`: new columns and variables. -/
def allocStmtFields (s : MysqlStmt) : MysqlStmt :=
  if s.mysql.fieldCount = 0 then s
  else { s with fieldCount := s.mysql.fieldCount, pieceDataUsed := List.replicate s.mysql.fieldCount false }

/-- `madb_reinit_result_set_metadata`; `true` is a failure. The number of columns may not change. -/
def reinitResultSetMetadata (s : MysqlStmt) : Bool × MysqlStmt :=
  if s.fieldCount = 0 then (false, allocStmtFields s)
  else if s.fieldCount ≠ s.mysql.fieldCount then
    if s.isHandleReturningInto ∧ s.hasAddedUserFields then (false, allocStmtFields s) else (true, s)
  else (false, s)

/-- `mthd_stmt_read_all_rows`; `true` is a failure. -/
def mthdStmtReadAllRows (s : MysqlStmt) : Except Fault (Bool × MysqlStmt) :=
  match readPackets (s.mysql.wire.length + 1) s.mysql with
  | (rows, none, m) =>
    .ok (true, { s with
      mysql := m, data := rows, rows := s.rows + rows.length, resultCursor := [], lastErrno := m.lastErrno })
  | (rows, some stop, m) => do
    let warningCount ← loadNat stop 1 2
    let serverStatus ← loadNat stop 3 2
    let session := { m.session with warningCount := warningCount, serverStatus := serverStatus }
    let upsertStatus := { s.upsertStatus with warningCount := warningCount, serverStatus := serverStatus }
    return (false, { s with
      mysql := { m with session := session }, data := rows, rows := s.rows + rows.length,
      resultCursor := rows, upsertStatus := upsertStatus })

/-- The descriptions of the parameters, if there are any. -/
def readParams (env : Env) (paramCount : Nat) (s : MysqlStmt) : Except Fault (Bool × MysqlStmt) :=
  if paramCount = 0 then .ok (false, s)
  else
    -- with `RETURNING ... INTO` there are more parameters than in the text
    let s := if s.isHandleReturningInto then { s with paramCount := paramCount } else s
    if paramCount ≠ s.paramCount then .ok s.malformed
    else onConn (readDefinitions env paramCount) s

/-- The descriptions of the columns, if there are any. -/
def readColumns (env : Env) (fieldCount : Nat) (s : MysqlStmt) : Except Fault (Bool × MysqlStmt) :=
  let s := { s with mysql := { s.mysql with fieldCount := 0 } }
  if fieldCount = 0 then .ok (false, s)
  else andThen (onConn (readFields env fieldCount) s) fun s => .ok (reinitResultSetMetadata s)

/-- The OK packet at the end. What is wrong with its changes of the session is not asked. -/
def readExtraOk (env : Env) (s : MysqlStmt) : Except Fault (Bool × MysqlStmt) :=
  match maNetSafeRead s.mysql with
  | (none, m) => .ok (true, { s with mysql := m })
  | (some p, m) =>
    if p.head? = some 0 then do
      let (session, _) ← Session.maReadOkPacket env.server p m.session
      return (false, { s with
        mysql := { m with session := session }
        upsertStatus := { s.upsertStatus with affectedRows := session.affectedRows } })
    else .ok ({ s with mysql := m } : MysqlStmt).malformed

/-- `PRE_EXE_EXTEND_FLAG_RETURNING`. -/
def extendFlagReturning : Nat := 1

/-- `PRE_EXE_EXTEND_FLAG_ADD_USER_FIELD`. -/
def extendFlagAddUserField : Nat := 2

/-- `stmt_read_prepare_execute_response`; `true` is a failure. -/
def stmtReadPrepareExecuteResponse (env : Env) (s : MysqlStmt) : Except Fault (Bool × MysqlStmt) :=
  match maNetSafeRead s.mysql with
  | (none, m) => .ok (true, { s with mysql := m })
  | (some p, m) =>
    let s := { s with mysql := m }
    if p.head? ≠ some 0 ∨ p.length < 17 then .ok s.malformed
    else do
      let stmtId ← loadNat p 1 4
      let fieldCount ← loadNat p 5 2
      let paramCount ← loadNat p 7 2
      let warningCount ← loadNat p 10 2
      let extendFlag ← loadNat p 12 4
      let hasResultSet ← loadNat p 16 1
      let s := { s with
        stmtId := stmtId
        mysql := { m with session := { m.session with warningCount := warningCount } }
        isHandleReturningInto := hasFlag extendFlag extendFlagReturning
        hasAddedUserFields := hasFlag extendFlag extendFlagAddUserField }
      if stmtId = 0 then .ok s.malformed
      else
        andThen (readParams env paramCount s) fun s =>
        andThen (readColumns env fieldCount s) fun s =>
        andThen (if hasResultSet = 0 then .ok (false, s) else mthdStmtReadAllRows s) fun s =>
        readExtraOk env s

/-- `mysql_stmt_store_result`; `true` is a failure. -/
def mysqlStmtStoreResult (s : MysqlStmt) : Except Fault (Bool × MysqlStmt) :=
  if s.fieldCount = 0 then .ok (false, s)
  else if s.lastErrno ≠ 0 ∨ s.state.code < StmtState.executed.code then .ok (true, s)
  else
    let last := s.mysql.serverStatus
    let asked : Bool × Conn :=
      if s.cursorExists ∧ s.mysql.status = .ready then
        mthdMySendCmd s.mysql ⟨comStmtFetch, leBytes 4 s.stmtId ++ leBytes 4 (2 ^ 32 - 1)⟩
      else (s.mysql.status ≠ .stmtResult, s.mysql)
    if asked.1 then .ok (true, { s with mysql := asked.2 })
    else do
      let (failed, s) ← mthdStmtReadAllRows { s with mysql := asked.2 }
      if failed then
        return (true, { s with data := [], rows := 0, mysql := { s.mysql with status := .ready } })
      else
        let m := if hasFlag last serverPsOutParams ∧ s.mysql.session.oracleMode = false then
          s.mysql.setServerStatus (s.mysql.serverStatus ||| serverMoreResultsExist) else s.mysql
        return (false, { s with
          resultCursor := s.data
          fetchRowFunc := some .buffered
          state := if s.rows = 0 then .fetchDone else .useOrStoreCalled
          upsertStatus := { s.upsertStatus with affectedRows := s.rows }
          mysql := { m with status := .ready, session := { m.session with affectedRows := s.rows } } })

/-- How the rows will come. -/
def chooseRows (s : MysqlStmt) : Except Fault (Bool × MysqlStmt) :=
  let status := s.upsertStatus.serverStatus
  if hasFlag status serverStatusCursorExists ∧ (s.cursorReadOnly ∨ s.usePrepareExecute) then
    .ok (false, { s with
      cursorExists := true, state := .waitingUseOrStore, mysql := { s.mysql with status := .ready } })
  else if s.cursorReadOnly ∧ hasFlag status serverMoreResultsExist = false then
    let status := if s.mysql.status = .getResult then .stmtResult else s.mysql.status
    andThen (mysqlStmtStoreResult { s with mysql := { s.mysql with status := status } }) fun s =>
      .ok (false, { s with mysql := { s.mysql with status := .stmtResult } })
  else if s.usePrepareExecute then
    .ok (false, { s with
      state := .waitingUseOrStore
      fetchRowFunc := some (if s.cursorExists then .cursor else .buffered)
      mysql := { s.mysql with status := .ready } })
  else .ok (false, { s with state := .waitingUseOrStore, mysql := { s.mysql with status := .stmtResult } })

/-- The state after an answer that failed, and whether the rest of it is still looked at. -/
def afterFailure (s : MysqlStmt) : Bool × MysqlStmt :=
  let noRowOrMany := s.usePrepareExecute ∧ (s.mysql.lastErrno = 1403 ∨ s.mysql.lastErrno = 1422)
  let goesOn := decide (noRowOrMany ∨ s.isHandleReturningInto ∨ s.hasAddedUserFields)
  let state := if s.isHandleReturningInto ∨ s.hasAddedUserFields then s.state
    else if noRowOrMany then .executed else .prepared
  let status := if s.usePrepareExecute then .ready else s.mysql.status
  (goesOn, { s with
    state := state, lastErrno := s.mysql.lastErrno, mysql := { s.mysql with status := status } })

/-- The counters of the connection become those of the statement. -/
def MysqlStmt.takeStatus (s : MysqlStmt) : MysqlStmt :=
  { s with upsertStatus := ⟨s.mysql.session.affectedRows, s.mysql.session.insertId, s.mysql.serverStatus,
      s.mysql.session.warningCount⟩ }

/-- The answer to the execution itself, by the protocol in use. -/
def readResponse (env : Env) (s : MysqlStmt) : Except Fault (Bool × MysqlStmt) :=
  if s.usePrepareExecute then stmtReadPrepareExecuteResponse env s
  else onConn (mthdMyReadQueryResult env) s

/-- The rows of the result, if it has columns. -/
def openRows (ret : Int) (s : MysqlStmt) : Except Fault (Int × MysqlStmt) :=
  if s.mysql.fieldCount = 0 then .ok (ret, s)
  else do
    let (failed, s) ← andThen (.ok (reinitResultSetMetadata s)) chooseRows
    return (if failed then 1 else ret, s)

/-- `stmt_read_execute_response`. -/
def stmtReadExecuteResponse (env : Env) (s : MysqlStmt) : Except Fault (Int × MysqlStmt) := do
  let (failed, s) ← readResponse env s
  if failed then
    let (goesOn, s) := afterFailure s
    if goesOn then openRows 1 s.takeStatus
    else
      let upsertStatus := { s.upsertStatus with affectedRows := s.mysql.session.affectedRows }
      .ok (1, { s with upsertStatus := upsertStatus })
  else
    openRows 0 { s.takeStatus with
      state := .executed, lastErrno := 0, mysql := { s.mysql with lastErrno := 0 } }

/-! ## A row -/

/-- `MYSQL_NO_DATA`. -/
def mysqlNoData : Int := 100

/-- `MYSQL_DATA_TRUNCATED`. -/
def mysqlDataTruncated : Int := 101

/-- `stmt_buffered_fetch`: the next of the rows that are here. -/
def stmtBufferedFetch (s : MysqlStmt) : Int × Option Packet × MysqlStmt :=
  match s.resultCursor with
  | [] => (mysqlNoData, none, { s with state := .fetchDone })
  | row :: rows => (0, some row, { s with state := .userFetching, resultCursor := rows })

/-- `stmt_unbuffered_fetch`: the next packet is the row. -/
def stmtUnbufferedFetch (s : MysqlStmt) : Except Fault (Int × Option Packet × MysqlStmt) :=
  match maNetSafeRead s.mysql with
  | (none, m) => .ok (1, none, { s with mysql := m, fetchRowFunc := some .unbufferedEof })
  | (some p, m) =>
    if p.head? = some 254 then do
      let warningCount ← loadNat p 1 2
      let serverStatus ← loadNat p 3 2
      let session := { m.session with warningCount := warningCount, serverStatus := serverStatus }
      let upsertStatus := { s.upsertStatus with warningCount := warningCount, serverStatus := serverStatus }
      return (mysqlNoData, none, { s with
        mysql := { m with session := session }
        upsertStatus := upsertStatus
        fetchRowFunc := some .unbufferedEof })
    else .ok (0, some p, { s with mysql := m, rows := s.rows + 1 })

/-- The last row has been here, and this is acted on once. -/
def MysqlStmt.clearLastRowSent (s : MysqlStmt) : MysqlStmt :=
  { s with upsertStatus := { s.upsertStatus with
      serverStatus := clearFlag s.upsertStatus.serverStatus serverStatusLastRowSent } }

/-- A command has been accepted; the rows of the last batch go. -/
def MysqlStmt.dropRows (s : MysqlStmt) (m : Conn) : MysqlStmt := { s with mysql := m, data := [], rows := 0 }

/-- The bits of the variables that take their value in pieces, eight to a byte. -/
def pieceBitmap (used : List Bool) : List UInt8 :=
  (List.range ((used.length + 7) / 8)).map fun byte =>
    let bit := fun k => if used.getD (8 * byte + k) false then 1 else 0
    ((List.range 8).foldr (fun k acc => 2 * acc + bit k) 0).toUInt8

/-- The argument of `COM_STMT_FETCH` in Oracle mode. -/
def oracleFetchArg (s : MysqlStmt) : List UInt8 :=
  let pieces := s.pieceDataUsed.any id
  let extendFlag := (if s.scrollable ∧ s.mysql.sendFetchFlag then 1 else 0) + (if pieces then 2 else 0)
  leBytes 4 s.stmtId ++ leBytes 4 s.prefetchRows ++ leBytes 2 s.orientation ++ leBytes 4 s.fetchOffset ++
    leBytes 4 extendFlag ++ (if pieces then pieceBitmap s.pieceDataUsed else [0])

/-- The OK packet behind the rows of a scrollable cursor, if more has been announced. -/
def readFetchOk (env : Env) (s : MysqlStmt) : Except Fault (Bool × MysqlStmt) :=
  if s.scrollable ∧ s.mysql.sendFetchFlag ∧ hasFlag s.mysql.serverStatus serverMoreResultsExist then
    readExtraOk env { s with mysql :=
      s.mysql.setServerStatus (clearFlag s.mysql.serverStatus serverMoreResultsExist) }
  else .ok (false, s)

/-- A batch in Oracle mode: the columns, the rows, and perhaps an OK packet. -/
def readOracleBatch (env : Env) (s : MysqlStmt) : Except Fault (Bool × MysqlStmt) :=
  andThen (onConn (mthdMyReadQueryResult env) s) fun t =>
  andThen (.ok (reinitResultSetMetadata t)) fun t =>
  andThen (mthdStmtReadAllRows { t with mysql := { t.mysql with status := s.mysql.status } }) fun t =>
  andThen (readFetchOk env t) fun t =>
  .ok (false, { t with upsertStatus := { t.upsertStatus with serverStatus := t.mysql.serverStatus } })

/-- The next batch, and its first row. -/
def fetchBatch (arg : List UInt8) (readBatch : MysqlStmt → Except Fault (Bool × MysqlStmt)) (s : MysqlStmt) :
    Except Fault (Int × Option Packet × MysqlStmt) :=
  match mthdMySendCmd s.mysql ⟨comStmtFetch, arg⟩ with
  | (true, m) => .ok (1, none, { s with mysql := m, lastErrno := m.lastErrno })
  | (false, m) => do
    let (failed, s) ← readBatch (s.dropRows m)
    return if failed then (1, none, s) else stmtBufferedFetch s

/-- `CURSOR_FETCH_DEFAULT`. -/
def cursorFetchDefault : Nat := 0

/-- `CURSOR_FETCH_NEXT`. -/
def cursorFetchNext : Nat := 2

/-- `do_stmt_read_row_from_oracle_implicit_cursor`. -/
def doStmtReadRowFromOracleImplicitCursor (env : Env) (isNeedFetchFromServer : Bool) (s : MysqlStmt) :
    Except Fault (Int × Option Packet × MysqlStmt) :=
  let last := hasFlag s.upsertStatus.serverStatus serverStatusLastRowSent
  if s.resultCursor ≠ [] ∧ isNeedFetchFromServer = false then .ok (stmtBufferedFetch s)
  else if s.scrollable = false ∧ last then .ok (mysqlNoData, none, s.clearLastRowSent)
  else if s.scrollable ∧ last ∧ (s.orientation = cursorFetchDefault ∨ s.orientation = cursorFetchNext) then
    .ok (mysqlNoData, none, s)
  else fetchBatch (oracleFetchArg s) (readOracleBatch env) s

/-- `stmt_cursor_fetch`. -/
def stmtCursorFetch (env : Env) (s : MysqlStmt) : Except Fault (Int × Option Packet × MysqlStmt) :=
  if s.state.code < StmtState.useOrStoreCalled.code then .ok (1, none, s)
  else if s.mysql.session.oracleMode then doStmtReadRowFromOracleImplicitCursor env false s
  else if s.resultCursor ≠ [] then .ok (stmtBufferedFetch s)
  else if hasFlag s.upsertStatus.serverStatus serverStatusLastRowSent then
    .ok (mysqlNoData, none, s.clearLastRowSent)
  else fetchBatch (leBytes 4 s.stmtId ++ leBytes 4 s.prefetchRows) mthdStmtReadAllRows s

/-- `_mysql_stmt_use_result`. -/
def mysqlStmtUseResult (s : MysqlStmt) : MysqlStmt :=
  if s.fieldCount = 0 ∨ (s.cursorExists = false ∧ s.mysql.status ≠ .stmtResult) ∨
      (s.cursorExists ∧ s.mysql.status ≠ .ready) ∨ s.state ≠ .waitingUseOrStore then s
  else
    { s with
      lastErrno := 0
      state := .useOrStoreCalled
      fetchRowFunc := some (if s.cursorExists then .cursor
        else if s.usePrepareExecute then .buffered else .unbuffered) }

/-- `mthd_stmt_fetch_row`. -/
def mthdStmtFetchRow (env : Env) (s : MysqlStmt) : Except Fault (Int × Option Packet × MysqlStmt) :=
  match s.fetchRowFunc with
  | none =>
    if s.mysql.session.oracleMode then stmtCursorFetch env { s with fetchRowFunc := some .cursor }
    else .error .nullCall
  | some .buffered => .ok (stmtBufferedFetch s)
  | some .unbuffered => stmtUnbufferedFetch s
  | some .unbufferedEof => .ok (mysqlNoData, none, s)
  | some .cursor => stmtCursorFetch env s

/-- `mthd_stmt_fetch_to_bind`. -/
def mthdStmtFetchToBind (env : Env) (row : Packet) (s : MysqlStmt) : Int × MysqlStmt :=
  (if env.truncates s.bound row then mysqlDataTruncated else 0, { s with bound := s.bound ++ [row] })

/-- `mysql_stmt_fetch`. -/
def mysqlStmtFetch (env : Env) (s : MysqlStmt) : Except Fault (Int × MysqlStmt) :=
  if s.state.code ≤ StmtState.executed.code then .ok (1, s)
  else if s.state.code < StmtState.waitingUseOrStore.code ∨ s.fieldCount = 0 then .ok (1, s)
  else
    let s := if s.state = .waitingUseOrStore then mysqlStmtUseResult s else s
    if s.state = .fetchDone then .ok (mysqlNoData, s)
    else do
      match ← mthdStmtFetchRow env s with
      | (0, some row, s) =>
        let (rc, s) := mthdStmtFetchToBind env row s
        return (rc, { s with state := .userFetching, lastErrno := 0, mysql := { s.mysql with lastErrno := 0 } })
      | (rc, _, s) => return (rc, { s with state := .fetchDone, mysql := { s.mysql with status := .ready } })

/-- A number of calls, and what they return. -/
def fetchCalls (env : Env) : Nat → MysqlStmt → Except Fault (List Int × MysqlStmt)
  | 0, s => .ok ([], s)
  | n + 1, s => do
    let (rc, s) ← mysqlStmtFetch env s
    let (rcs, s) ← fetchCalls env n s
    return (rc :: rcs, s)

end ObConnector.Stmt
