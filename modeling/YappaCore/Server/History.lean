import YappaCore.Lib.Paging
import YappaCore.Lib.Sql
import YappaCore.Server.Groups

/-!
`get_channel_history` of `src/server/history.rs`, down to the text of its statement: the
parameter `before` is written into it and becomes part of what Postgres parses.

The statement is read by the rules of `Lib.Sql`. A search condition made of the handler's own
comparisons is evaluated; what else a text can make Postgres do is left open in `Postgres`.
-/

namespace YappaCore

open Lib Lib.Sql

/-! ### The request -/

structure HistoryQuery where
  before : Option String
  limit : Option Int
deriving DecidableEq, Repr

structure MessageResponse where
  messageId : String
  channelType : String
  channelId : String
  senderId : String
  text : String
  timestamp : UInt64
  conversationId : String
deriving DecidableEq, Repr

@[ext] structure ChannelPath where
  tenantId : String
  channelType : String
  channelId : String
deriving DecidableEq, Repr

def MessageRow.path (row : MessageRow) : ChannelPath := ⟨row.tenantId, row.channelType, row.channelId⟩

/-- The columns that are selected, as the response gives them; the seconds are cast to `u64`. -/
def MessageRow.response (row : MessageRow) : MessageResponse where
  messageId := uuidText row.messageId
  channelType := row.channelType
  channelId := row.channelId
  senderId := row.senderId
  text := row.content
  timestamp := (Int64.ofInt row.createdAt).toUInt64
  conversationId := uuidText row.conversationId

/-! ### The statement -/

def selectText : String := "
        SELECT message_id::text, channel_type, channel_id, sender_id, content as text, 
               EXTRACT(EPOCH FROM created_at)::bigint as timestamp, conversation_id::text as conversation_id
        FROM messages
        WHERE "

def channelText : String := "tenant_id = $1 
          AND channel_type = $2
          AND channel_id = $3
          "

def orderText : String := "
        ORDER BY created_at DESC
        LIMIT $4
        "

/-- What precedes the argument of `to_timestamp`. -/
def beforeText : String := "AND created_at < to_timestamp("

def beforeClause : Option String → String
  | none => ""
  | some b => beforeText ++ b ++ ")"

def historySql (before : Option String) : String :=
  selectText ++ channelText ++ beforeClause before ++ orderText

def selectTokens : List Token := complete selectText.toList

def orderTokens : List Token := complete orderText.toList

/-! ### What Postgres makes of it -/

/-- The comparisons of the statement; `before` holds the argument of `to_timestamp`. -/
inductive Primary where
  | tenant
  | channelType
  | channelId
  | before (argument : List Token)
deriving DecidableEq

/-- A comparison of the statement, read from its tokens. -/
def primary (tokens : List Token) : Option Primary :=
  if tokens = [.word "tenant_id", .symbol '=', .parameter "1"] then some .tenant
  else if tokens = [.word "channel_type", .symbol '=', .parameter "2"] then some .channelType
  else if tokens = [.word "channel_id", .symbol '=', .parameter "3"] then some .channelId
  else
    match between [.word "created_at", .symbol '<', .word "to_timestamp", .symbol '(']
        [.symbol ')'] tokens with
    | some argument => if depthAfter 0 argument = some 0 then some (.before argument) else none
    | none => none

/-- The database, as far as the statement leaves it open: whether it answers, how it orders rows
of the same second, the rows before a time given by another expression than a number, and other
statements. `none` is an error. -/
structure Postgres where
  ok : Bool
  order : NewestFirst MessageRow.createdAt
  argument : List Token → ChannelPath → List MessageRow → Option (MessageRow → Bool)
  other : List Token → ChannelPath → Int → List MessageRow → Option (List MessageRow)

/-- An argument that is a whole number. -/
def seconds : List Token → Option Nat
  | [.number text] =>
      if text.toList.all Char.isDigit then some (Nat.ofDigitChars 10 text.toList 0) else none
  | _ => none

/-- The end of the times that `to_timestamp` can give. -/
def END_TIMESTAMP : Nat := 9224318016000

namespace Postgres

variable (pg : Postgres) (path : ChannelPath) (limit : Int) (table : List MessageRow)

/-- `created_at < to_timestamp(argument)`. -/
def earlier (argument : List Token) : Option (MessageRow → Bool) :=
  match seconds argument with
  | some n => if n < END_TIMESTAMP then some fun row => row.createdAt < n else none
  | none => pg.argument argument path table

/-- What a comparison says of a row. -/
def meaning : Primary → Option (MessageRow → Bool)
  | .tenant => some fun row => row.tenantId = path.tenantId
  | .channelType => some fun row => row.channelType = path.channelType
  | .channelId => some fun row => row.channelId = path.channelId
  | .before argument => pg.earlier path table argument

/-- The rows that meet a condition, the newest first, and of these the first. -/
def select (condition : List (List Primary)) : Option (List MessageRow) := do
  let condition ← condition.mapM (·.mapM (pg.meaning path table))
  if limit < 0 then none
  else some ((pg.order.arrange (table.filter (Holds condition))).take limit.toNat)

/-- The database answers, and takes the texts that are bound. -/
def Answers : Prop :=
  pg.ok = true ∧ Storable path.tenantId ∧ Storable path.channelType ∧ Storable path.channelId

instance : Decidable (pg.Answers path) := by
  unfold Answers; infer_instance

/-- What a statement with these tokens selects. -/
def statement (tokens : List Token) : Option (List MessageRow) :=
  ((between selectTokens orderTokens tokens).bind (parseCondition primary)).elim
    (pg.other tokens path limit table) (pg.select path limit table)

def execute (sql : String) : Option (List MessageRow) :=
  if pg.Answers path ∧ Storable sql then
    (tokens sql.toList).bind (pg.statement path limit table)
  else none

end Postgres

/-! ### The endpoint -/

/-- How many rows are asked for. -/
def HistoryQuery.rows (query : HistoryQuery) : Int := min (query.limit.getD 50) 100

/-- The rows that `get_channel_history` fetches. -/
def historyRows (pg : Postgres) (table : List MessageRow) (path : ChannelPath)
    (query : HistoryQuery) : Option (List MessageRow) :=
  pg.execute path query.rows table (historySql query.before)

/-- `get_channel_history`: the status and the body. -/
def getChannelHistory (pg : Postgres) (table : List MessageRow) (path : ChannelPath)
    (query : HistoryQuery) : Nat × List MessageResponse :=
  match historyRows pg table path query with
  | some rows => (200, rows.map MessageRow.response)
  | none => (500, [])

/-! ### The tokens of the statement -/

/-- The argument closes all that it opens and nothing else, and ends outside strings and
comments. -/
def Closed (before : String) : Prop :=
  ∃ last, scan (.plain .none) 0 before.toList = some (last, 0) ∧ last.code = true

def channelTokens : List Token :=
  [.word "tenant_id", .symbol '=', .parameter "1", .word "and",
    .word "channel_type", .symbol '=', .parameter "2", .word "and",
    .word "channel_id", .symbol '=', .parameter "3"]

def beforeTokens : List Token :=
  [.word "and", .word "created_at", .symbol '<', .word "to_timestamp", .symbol '(']

/-- The tokens of an argument, when a parenthesis follows. -/
def argumentTokens (before : String) : List Token :=
  (read (.plain .none) before.toList).1 ++ (read (.plain .none) before.toList).2.pending

/-- The characters of a literal, which is one of them. -/
theorem toList_of_eq {text : String} {cs : List Char} (same : text = String.ofList cs) :
    text.toList = cs := by
  rw [same, String.toList_ofList]

set_option maxRecDepth 2000 in
theorem read_selectText : read (.plain .none) selectText.toList = (selectTokens, .plain .none) := by
  have text : selectText.toList = _ := toList_of_eq rfl
  apply read_eq
  rw [text]
  decide +kernel

theorem read_orderText : read (.plain .none) orderText.toList = (orderTokens, .plain .none) := by
  have text : orderText.toList = _ := toList_of_eq rfl
  apply read_eq
  rw [text]
  decide +kernel

theorem read_channelText :
    read (.plain .none) channelText.toList = (channelTokens, .plain .none) := by
  have text : channelText.toList = _ := toList_of_eq rfl
  rw [text]
  decide +kernel

theorem read_beforeText : read (.plain .none) beforeText.toList = (beforeTokens, .plain .none) := by
  have text : beforeText.toList = _ := toList_of_eq rfl
  rw [text]
  decide +kernel

theorem toList_historySql (before : Option String) : (historySql before).toList =
    selectText.toList ++ (channelText.toList ++ ((beforeClause before).toList ++
      orderText.toList)) := by
  simp only [historySql, String.toList_append, List.append_assoc]

theorem toList_beforeClause (before : String) : (beforeClause (some before)).toList =
    beforeText.toList ++ (before.toList ++ [')']) := by
  simp only [beforeClause, String.toList_append, List.append_assoc]
  rfl

/-- The tokens of the statement, where its last clause ends outside of everything. -/
theorem tokens_of_clause {before : Option String} {clause : List Token}
    (ends : read (.plain .none) (beforeClause before).toList = (clause, .plain .none)) :
    tokens (historySql before).toList =
      some (selectTokens ++ (channelTokens ++ clause ++ orderTokens)) := by
  rw [toList_historySql, tokens_append read_selectText, tokens_append read_channelText,
    tokens_append ends, tokens_eq read_orderText]
  simp only [Option.map_some, List.append_assoc]

theorem tokens_none : tokens (historySql none).toList =
    some (selectTokens ++ (channelTokens ++ orderTokens)) := by
  have nothing : read (.plain .none) (beforeClause none).toList = ([], .plain .none) := by
    rw [beforeClause, String.toList_empty, read_nil]
  rw [tokens_of_clause nothing, List.append_nil]

theorem depthAfter_argumentTokens {before : String} (closed : Closed before) :
    depthAfter 0 (argumentTokens before) = some 0 := by
  obtain ⟨last, scanned, _⟩ := closed
  unfold argumentTokens
  rw [depthAfter_append, (depthAfter_read scanned).2, Option.bind_some, depthAfter_pending]

/-- Outside a closed argument the tokens are those of the handler's own text. -/
theorem tokens_some {before : String} (closed : Closed before) :
    tokens (historySql (some before)).toList = some (selectTokens ++
      (channelTokens ++ (beforeTokens ++ (argumentTokens before ++ [.symbol ')'])) ++
        orderTokens)) := by
  obtain ⟨last, scanned, code⟩ := closed
  have ends : (read (.plain .none) before.toList).2 = last := (depthAfter_read scanned).1
  have close : read last [')'] = (last.pending ++ [.symbol ')'], .plain .none) := by
    simp only [Sql.read, step_paren code (.inr rfl), List.append_nil]
  apply tokens_of_clause
  rw [toList_beforeClause, read_append, read_beforeText, read_append, ends, close, argumentTokens,
    ends, List.append_assoc]

theorem parse_channel : parseCondition primary channelTokens =
    some [[.tenant, .channelType, .channelId]] := by
  decide +kernel

/-- A closed argument is one argument. -/
theorem parse_before {argument : List Token} (balanced : depthAfter 0 argument = some 0) :
    parseCondition primary (channelTokens ++ (beforeTokens ++ (argument ++ [.symbol ')']))) =
      some [[.tenant, .channelType, .channelId, .before argument]] := by
  have inside := fun separator => split_inside separator balanced [.symbol ')']
  have own : primary [.word "tenant_id", .symbol '=', .parameter "1"] = some .tenant ∧
      primary [.word "channel_type", .symbol '=', .parameter "2"] = some .channelType ∧
      primary [.word "channel_id", .symbol '=', .parameter "3"] = some .channelId := by decide +kernel
  have last : primary ([.word "created_at", .symbol '<', .word "to_timestamp", .symbol '('] ++
      (argument ++ [.symbol ')'])) = some (.before argument) := by
    unfold primary
    rw [between_append]
    simp [balanced]
  simp only [List.cons_append, List.nil_append] at last
  simp [parseCondition, channelTokens, beforeTokens, split, Token.deeper, inside, own, last]

/-- A number is one argument. -/
theorem closed_repr (n : Nat) : Closed n.repr ∧ seconds (argumentTokens n.repr) = some n := by
  have digits : n.repr.toList = Nat.toDigits 10 n := Nat.toList_repr
  have all : ∀ c ∈ n.repr.toList, c.isDigit = true := by
    intro c mem
    rw [digits] at mem
    exact Nat.isDigit_of_mem_toDigits (by omega) (by omega) mem
  obtain ⟨tokens, scanned⟩ := read_number (digits ▸ Nat.toDigits_ne_nil) all .none
  have one : argumentTokens n.repr = [.number n.repr] := by
    unfold argumentTokens
    rw [tokens]
    simp only [Mode.pending, List.nil_append, String.ofList_toList]
  refine ⟨⟨_, scanned, rfl⟩, ?_⟩
  rw [one, seconds, if_pos (List.all_eq_true.mpr all), digits, Nat.ofDigitChars_ten_toDigits]

/-! ### What it selects -/

section Select

variable (pg : Postgres) (path : ChannelPath) (limit : Int) (table : List MessageRow)

/-- The rows of a channel. -/
def channelRows (table : List MessageRow) (path : ChannelPath) : List MessageRow :=
  table.filter fun row => row.path = path

theorem select_channel : pg.select path limit table [[.tenant, .channelType, .channelId]] =
    if limit < 0 then none
    else some ((pg.order.arrange (channelRows table path)).take limit.toNat) := by
  have holds : Holds [[fun row : MessageRow => decide (row.tenantId = path.tenantId),
      fun row => decide (row.channelType = path.channelType),
      fun row => decide (row.channelId = path.channelId)]] = fun row => decide (row.path = path) := by
    funext row
    simp [Holds, MessageRow.path, ChannelPath.ext_iff]
  rw [channelRows, ← holds]
  rfl

theorem select_before (argument : List Token) :
    pg.select path limit table [[.tenant, .channelType, .channelId, .before argument]] =
      (pg.earlier path table argument).bind fun earlier =>
        if limit < 0 then none
        else some ((pg.order.arrange ((channelRows table path).filter earlier)).take
          limit.toNat) := by
  have mapped : [[Primary.tenant, .channelType, .channelId, .before argument]].mapM
      (·.mapM (pg.meaning path table)) = (pg.earlier path table argument).map
        fun earlier => [[fun row : MessageRow => decide (row.tenantId = path.tenantId),
          fun row => decide (row.channelType = path.channelType),
          fun row => decide (row.channelId = path.channelId), earlier]] := by
    cases found : pg.earlier path table argument <;> simp [found, Postgres.meaning]
  have holds : ∀ earlier : MessageRow → Bool,
      table.filter (Holds [[fun row : MessageRow => decide (row.tenantId = path.tenantId),
        fun row => decide (row.channelType = path.channelType),
        fun row => decide (row.channelId = path.channelId), earlier]]) =
      (channelRows table path).filter earlier := by
    intro earlier
    rw [channelRows, List.filter_filter]
    apply List.filter_congr
    intro row _
    cases kept : earlier row <;> simp [Holds, MessageRow.path, ChannelPath.ext_iff, kept]
  unfold Postgres.select
  rw [mapped]
  cases pg.earlier path table argument with
  | none => rfl
  | some earlier =>
      rw [Option.bind_some, ← holds]
      rfl

set_option maxRecDepth 2000 in
/-- The handler's own texts hold no zero byte. -/
theorem storable_texts : (Storable selectText ∧ Storable channelText) ∧ Storable beforeText ∧
    Storable orderText := by
  have select : selectText.toList = _ := toList_of_eq rfl
  have channel : channelText.toList = _ := toList_of_eq rfl
  have before : beforeText.toList = _ := toList_of_eq rfl
  have order : orderText.toList = _ := toList_of_eq rfl
  unfold Storable
  rw [select, channel, before, order]
  decide +kernel

theorem storable_historySql (before : Option String) :
    Storable (historySql before) ↔ ∀ b ∈ before, Storable b := by
  obtain ⟨⟨select, channel⟩, leading, order⟩ := storable_texts
  unfold Storable at *
  cases before with
  | none => simp [historySql, beforeClause, select, channel, order]
  | some b => simp [historySql, beforeClause, select, channel, leading, order]

/-- A statement between the handler's own texts is executed as its condition says. -/
theorem execute_of_condition {sql : String} {middle : List Token} {condition : List (List Primary)}
    (lexed : tokens sql.toList = some (selectTokens ++ (middle ++ orderTokens)))
    (parsed : parseCondition primary middle = some condition) :
    pg.execute path limit table sql =
      if pg.Answers path ∧ Storable sql then pg.select path limit table condition else none := by
  have selects : pg.statement path limit table (selectTokens ++ (middle ++ orderTokens)) =
      pg.select path limit table condition := by
    rw [Postgres.statement, between_append, Option.bind_some, parsed, Option.elim_some]
  unfold Postgres.execute
  rw [lexed, Option.bind_some, selects]

theorem execute_none : pg.execute path limit table (historySql none) =
    if pg.Answers path then
      pg.select path limit table [[.tenant, .channelType, .channelId]]
    else none := by
  have storable : Storable (historySql none) := (storable_historySql none).mpr (by simp)
  rw [execute_of_condition pg path limit table tokens_none parse_channel]
  simp only [storable, and_true]

theorem execute_some {before : String} (closed : Closed before) :
    pg.execute path limit table (historySql (some before)) =
      if pg.Answers path ∧ Storable before then
        pg.select path limit table
          [[.tenant, .channelType, .channelId, .before (argumentTokens before)]]
      else none := by
  have parsed := parse_before (depthAfter_argumentTokens closed)
  rw [execute_of_condition pg path limit table (tokens_some closed) parsed]
  simp only [storable_historySql, Option.mem_some_iff, forall_eq']

theorem historyRows_of_not_answers (fails : ¬ pg.Answers path) (query : HistoryQuery) :
    historyRows pg table path query = none := by
  unfold historyRows Postgres.execute
  rw [if_neg fun both => fails both.1]

theorem historyRows_none (limit : Option Int) : historyRows pg table path ⟨none, limit⟩ =
    if pg.Answers path ∧ 0 ≤ HistoryQuery.rows ⟨none, limit⟩ then
      some ((pg.order.arrange (channelRows table path)).take
        (HistoryQuery.rows ⟨none, limit⟩).toNat)
    else none := by
  unfold historyRows
  rw [execute_none, select_channel]
  by_cases answers : pg.Answers path
  · by_cases negative : HistoryQuery.rows ⟨none, limit⟩ < 0
    · rw [if_pos answers, if_pos negative, if_neg fun both => not_lt.mpr both.2 negative]
    · rw [if_pos answers, if_neg negative, if_pos ⟨answers, not_lt.mp negative⟩]
  · rw [if_neg answers, if_neg fun both => answers both.1]

/-- What a request without `before` answers. -/
theorem mem_history {limit : Option Int} {message : MessageResponse} :
    message ∈ (getChannelHistory pg table path ⟨none, limit⟩).2 ↔
      (pg.Answers path ∧ 0 ≤ HistoryQuery.rows ⟨none, limit⟩) ∧
        ∃ row ∈ (pg.order.arrange (channelRows table path)).take
          (HistoryQuery.rows ⟨none, limit⟩).toNat, row.response = message := by
  unfold getChannelHistory
  rw [historyRows_none]
  by_cases fetched : pg.Answers path ∧ 0 ≤ HistoryQuery.rows ⟨none, limit⟩
  · rw [if_pos fetched]
    exact ⟨fun mem => ⟨fetched, List.mem_map.mp mem⟩, fun both => List.mem_map.mpr both.2⟩
  · rw [if_neg fetched]
    exact ⟨fun mem => absurd mem List.not_mem_nil, fun both => absurd both.1 fetched⟩

/-- A number restricts the rows to those before that time. -/
theorem historyRows_seconds (n : Nat) (limit : Option Int) :
    historyRows pg table path ⟨some n.repr, limit⟩ =
      if (pg.Answers path ∧ n < END_TIMESTAMP) ∧ 0 ≤ HistoryQuery.rows ⟨some n.repr, limit⟩ then
        some ((pg.order.arrange ((channelRows table path).filter fun row => row.createdAt < n)).take
          (HistoryQuery.rows ⟨some n.repr, limit⟩).toNat)
      else none := by
  obtain ⟨closed, value⟩ := closed_repr n
  have storable : Storable n.repr := by
    intro mem
    rw [Nat.toList_repr] at mem
    exact absurd (Nat.isDigit_of_mem_toDigits (by omega) (by omega) mem) (by decide)
  have earlier : pg.earlier path table (argumentTokens n.repr) =
      if n < END_TIMESTAMP then some fun row : MessageRow => decide (row.createdAt < n) else none := by
    unfold Postgres.earlier
    rw [value]
  unfold historyRows
  rw [execute_some pg path _ table closed, select_before, earlier]
  by_cases answers : pg.Answers path
  · rw [if_pos ⟨answers, storable⟩]
    by_cases representable : n < END_TIMESTAMP
    · rw [if_pos representable, Option.bind_some]
      split
      · rename_i negative
        rw [if_neg fun both => not_lt.mpr both.2 negative]
      · rename_i positive
        rw [if_pos ⟨⟨answers, representable⟩, not_lt.mp positive⟩]
    · rw [if_neg representable, Option.bind_none, if_neg fun both => representable both.1.2]
  · rw [if_neg fun both => answers both.1, if_neg fun both => answers both.1.1]

/-- With a closed argument too, every row is one of the channel. -/
theorem mem_historyRows {before : String} (closed : Closed before) {limit : Option Int}
    {rows : List MessageRow} (fetched : historyRows pg table path ⟨some before, limit⟩ = some rows) :
    ∀ row ∈ rows, row ∈ channelRows table path := by
  unfold historyRows at fetched
  rw [execute_some pg path _ table closed, select_before] at fetched
  split at fetched
  · obtain ⟨earlier, _, selected⟩ := Option.bind_eq_some_iff.mp fetched
    split at selected
    · simp at selected
    · obtain rfl := Option.some.inj selected
      intro row mem
      have inside := (pg.order.perm _).mem_iff.mp (List.mem_of_mem_take mem)
      exact (List.mem_filter.mp inside).1
  · simp at fetched

end Select

end YappaCore
