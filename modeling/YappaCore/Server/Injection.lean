import YappaCore.Server.History

/-!
What the parameter `before` of a history request can do to the statement it is written into.

`confined_iff`: it stays in the argument of `to_timestamp`, and the rows in the channel, exactly
when it closes all the parentheses it opens and no other, and ends outside strings and comments.
-/

namespace YappaCore

open Lib Lib.Sql

/-- The text that the handler writes before the parameter. -/
def leadingText : String := selectText ++ channelText ++ beforeText

/-- The text of the argument of `to_timestamp`, up to the parenthesis that closes it, and the text
after that. -/
def argumentText (sql : String) : Option (List Char × List Char) :=
  closing (read (.plain .none) leadingText.toList).2 0 (sql.toList.drop leadingText.toList.length)

/-- The characters of `before` are the argument of `to_timestamp`, the tokens outside it are those
of the handler's own text, and every row is one of the channel. -/
structure Confined (before : String) : Prop where
  inside : argumentText (historySql (some before)) = some (before.toList, orderText.toList)
  outside : ∃ argument, depthAfter 0 argument = some 0 ∧
    tokens (historySql (some before)).toList = some (selectTokens ++
      (channelTokens ++ (beforeTokens ++ (argument ++ [.symbol ')'])) ++ orderTokens))
  rows : ∀ pg table path limit rows, historyRows pg table path ⟨some before, limit⟩ = some rows →
    ∀ row ∈ rows, row.path = path

theorem read_leadingText : (read (.plain .none) leadingText.toList).2 = .plain .none := by
  unfold leadingText
  simp only [String.toList_append, read_append, read_selectText, read_channelText, read_beforeText]

/-- After the leading text come the parameter, its parenthesis and the rest of the statement. -/
theorem argumentText_eq (before : String) : argumentText (historySql (some before)) =
    closing (.plain .none) 0 (before.toList ++ ')' :: orderText.toList) := by
  have parts : (historySql (some before)).toList =
      leadingText.toList ++ (before.toList ++ ')' :: orderText.toList) := by
    unfold historySql beforeClause leadingText
    simp only [String.toList_append, List.append_assoc]
    rfl
  unfold argumentText
  rw [read_leadingText, parts, List.drop_left]

/-- The parameter is confined to its argument if and only if it is closed. One that Postgres
refuses because it leaves a string or a comment open is not: it takes in what the handler wrote after
it. -/
theorem confined_iff (before : String) : Confined before ↔ Closed before := by
  constructor
  · intro confined
    have inside := confined.inside
    rw [argumentText_eq] at inside
    exact (closing_eq_iff _ _ _ _).mp inside
  · intro closed
    refine ⟨?_, ⟨_, depthAfter_argumentTokens closed, tokens_some closed⟩, ?_⟩
    · rw [argumentText_eq]
      exact (closing_eq_iff _ _ _ _).mpr closed
    · intro pg table path limit rows fetched row mem
      have own := mem_historyRows pg path table closed fetched row mem
      exact of_decide_eq_true (List.mem_filter.mp own).2

/-- A request whose `before`, if it has one, is closed fetches rows of its channel. -/
theorem fetched_subset {pg : Postgres} {table : List MessageRow} {path : ChannelPath}
    {query : HistoryQuery} (closed : ∀ before ∈ query.before, Closed before)
    {rows : List MessageRow} (fetched : historyRows pg table path query = some rows) :
    rows ⊆ channelRows table path := by
  obtain ⟨before, limit⟩ := query
  cases before with
  | some before => exact mem_historyRows pg path table (closed before rfl) fetched
  | none =>
      rw [historyRows_none] at fetched
      obtain rfl := Option.some.inj (Option.ite_none_right_eq_some.mp fetched).2
      exact fun row mem => (pg.order.perm _).subset (List.mem_of_mem_take mem)

/-- A database whose rows are ordered as in the table, without other statements. -/
def plainPostgres : Postgres where
  ok := true
  order :=
    { arrange := fun rows => rows.insertionSort fun a b => a.createdAt ≥ b.createdAt
      perm := fun rows => List.perm_insertionSort _ rows
      sorted := fun rows => List.pairwise_insertionSort (fun a b : MessageRow =>
        a.createdAt ≥ b.createdAt) rows }
  argument := fun _ _ _ => none
  other := fun _ _ _ _ => none

/-- It closes the argument of `to_timestamp` and goes on with a condition of its own. -/
def escaping : String := "0) OR created_at < to_timestamp(2000000000"

set_option maxRecDepth 2000 in
/-- The statement with it selects the rows of the channel before 1970, and all rows before 2033. -/
theorem execute_escaping (pg : Postgres) (path : ChannelPath) (limit : Int)
    (table : List MessageRow) : pg.execute path limit table (historySql (some escaping)) =
      if pg.Answers path ∧ Storable (historySql (some escaping)) then
        pg.select path limit table [[.tenant, .channelType, .channelId, .before [.number "0"]],
          [.before [.number "2000000000"]]]
      else none := by
  have text : escaping.toList = _ := toList_of_eq rfl
  have clause : read (.plain .none) (beforeClause (some escaping)).toList = (beforeTokens ++
      [.number "0", .symbol ')', .word "or", .word "created_at", .symbol '<', .word "to_timestamp",
        .symbol '(', .number "2000000000", .symbol ')'], .plain .none) := by
    rw [toList_beforeClause, read_append, read_beforeText, text]
    decide +kernel
  apply execute_of_condition pg path limit table (tokens_of_clause clause)
  decide +kernel

/-- A parameter that closes the argument and goes on with a condition of its own fetches the
messages of another tenant. -/
theorem before_reads_other_tenant :
    ¬ ∀ pg table path before limit rows,
      historyRows pg table path ⟨some before, limit⟩ = some rows → ∀ row ∈ rows, row.path = path := by
  intro confined
  let secret : MessageRow := ⟨1, "globex", 5, "Dm", "hank", "homer", "secret", 1739280000⟩
  let path : ChannelPath := ⟨"acme", "Dm", "ada"⟩
  have storable : Storable (historySql (some escaping)) := by
    rw [storable_historySql]
    decide
  have selected : plainPostgres.select path 50 [secret]
      [[.tenant, .channelType, .channelId, .before [.number "0"]],
        [.before [.number "2000000000"]]] = some [secret] := by
    decide +kernel
  have fetched : historyRows plainPostgres [secret] path ⟨some escaping, none⟩ = some [secret] := by
    change plainPostgres.execute path 50 [secret] (historySql (some escaping)) = some [secret]
    rw [execute_escaping, if_pos ⟨by decide, storable⟩, selected]
  have same := confined _ _ _ _ _ _ fetched secret (List.mem_singleton_self secret)
  exact absurd same (by decide)

end YappaCore
