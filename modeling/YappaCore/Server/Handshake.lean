import YappaCore.Lib.Params
import YappaCore.Server.Session

/-!
How `ws_handler` of `src/server/ws.rs` finds the token of a request: in the `Authorization` header
behind `Bearer `, or else in the query.

`token_iff` says where in a request its token stands; the query is read as it is, without decoding.
`sessions_authenticated`: every session is of an identity that the token of some request was
authenticated as.
-/

namespace YappaCore

open Lib

/-- What `ws_handler` reads of a request: the `Authorization` header, if it can be read as text, and
the query of the URI. -/
structure Upgrade where
  authorization : Option String
  query : Option String
deriving DecidableEq, Repr

/-- `str::strip_prefix`. -/
def stripPrefix (front text : String) : Option String :=
  if front.toList.isPrefixOf text.toList then
    some (String.ofList (text.toList.drop front.toList.length))
  else none

/-- `query_params`: a map filled from the pairs of the query. -/
def queryParams (query : String) (name : String) : Option String :=
  (Params.value '&' '=' name.toList query.toList).map String.ofList

namespace Upgrade

/-- `token`. -/
def token (request : Upgrade) : Option String :=
  (request.authorization.bind (stripPrefix "Bearer ")).or
    (queryParams (request.query.getD "") "token")

/-- The outcome of the token check; `authenticate` is `Auth::authenticate`. -/
def authenticated (authenticate : String → Option Identity) (request : Upgrade) : Option Identity :=
  request.token.bind authenticate

end Upgrade

theorem stripPrefix_eq_some {front text rest : String} :
    stripPrefix front text = some rest ↔ text = front ++ rest := by
  unfold stripPrefix
  rw [← String.toList_inj, String.toList_append, Option.ite_none_right_eq_some, Option.some.injEq,
    List.isPrefixOf_iff_prefix, ← String.toList_inj, String.toList_ofList]
  constructor
  · rintro ⟨⟨back, same⟩, dropped⟩
    rw [← same, List.drop_left] at dropped
    rw [← same, dropped]
  · intro same
    rw [same, List.drop_left]
    exact ⟨List.prefix_append _ _, rfl⟩

/-- The query gives a token where `token=` stands at its start or behind a `&`; of several it is the
last, and it ends before the next `&`. -/
theorem queryParams_token {query t : String} : queryParams query "token" = some t ↔
    '&' ∉ t.toList ∧ ∃ front back : String, query = front ++ ("token=" ++ t) ++ back ∧
      (front = "" ∨ ∃ earlier, front = earlier ++ "&") ∧
      (back = "" ∨ ∃ later, back = "&" ++ later) ∧ ∀ a b, back ≠ a ++ ("&token=" ++ b) := by
  have eq_iff : ∀ {a b : String}, a = b ↔ a.toList = b.toList := String.toList_inj.symm
  have text : ∀ cs : List Char, ∃ a : String, a.toList = cs := fun cs =>
    ⟨String.ofList cs, String.toList_ofList⟩
  have name : "token=".toList = "token".toList ++ ['='] := rfl
  have named : "&token=".toList = '&' :: ("token".toList ++ ['=']) := rfl
  have spec := @Params.value_eq_some Char _ '&' '=' "token".toList (by decide) (by decide)
    (by decide) query.toList t.toList
  have given : queryParams query "token" = some t ↔
      Params.value '&' '=' "token".toList query.toList = some t.toList := by
    unfold queryParams
    rw [Option.map_eq_some_iff]
    constructor
    · rintro ⟨v, found, rfl⟩
      rw [found, String.toList_ofList]
    · exact fun found => ⟨t.toList, found, String.ofList_toList⟩
  rw [given, spec]
  refine and_congr_right fun _ => ?_
  constructor
  · rintro ⟨front, back, same, opens, closes, last⟩
    obtain ⟨front, rfl⟩ := text front
    obtain ⟨back, rfl⟩ := text back
    refine ⟨front, back, ?_, ?_, ?_, ?_⟩
    · rw [eq_iff]
      simpa [name] using same
    · refine opens.imp (fun none => by simpa using none) ?_
      rintro ⟨earlier, same⟩
      obtain ⟨earlier, rfl⟩ := text earlier
      exact ⟨earlier, by rw [eq_iff]; simpa using same⟩
    · refine closes.imp (fun none => by simpa using none) ?_
      rintro ⟨later, same⟩
      obtain ⟨later, rfl⟩ := text later
      exact ⟨later, by rw [eq_iff]; simpa using same⟩
    · intro a b again
      refine last a.toList b.toList ?_
      rw [eq_iff] at again
      simpa [named] using again
  · rintro ⟨front, back, same, opens, closes, last⟩
    refine ⟨front.toList, back.toList, ?_, ?_, ?_, ?_⟩
    · rw [eq_iff] at same
      simpa [name] using same
    · refine opens.imp (fun none => by simp [none]) ?_
      rintro ⟨earlier, rfl⟩
      exact ⟨earlier.toList, by simp⟩
    · refine closes.imp (fun none => by simp [none]) ?_
      rintro ⟨later, rfl⟩
      exact ⟨later.toList, by simp⟩
    · intro a b again
      obtain ⟨a, rfl⟩ := text a
      obtain ⟨b, rfl⟩ := text b
      refine last a b ?_
      rw [eq_iff]
      simpa [named] using again

/-- The token of a request is what follows `Bearer ` in its header; where the header does not begin
with that, it is what follows the last `token=` that begins a parameter of its query, up to the next
`&`. -/
theorem Upgrade.token_iff (request : Upgrade) (t : String) : request.token = some t ↔
    request.authorization = some ("Bearer " ++ t) ∨
      (∀ rest, request.authorization ≠ some ("Bearer " ++ rest)) ∧
        ∃ query, request.query = some query ∧ '&' ∉ t.toList ∧
          ∃ front back : String, query = front ++ ("token=" ++ t) ++ back ∧
            (front = "" ∨ ∃ earlier, front = earlier ++ "&") ∧
            (back = "" ∨ ∃ later, back = "&" ++ later) ∧ ∀ a b, back ≠ a ++ ("&token=" ++ b) := by
  have bearer : ∀ rest, request.authorization.bind (stripPrefix "Bearer ") = some rest ↔
      request.authorization = some ("Bearer " ++ rest) := by
    intro rest
    rw [Option.bind_eq_some_iff]
    simp only [stripPrefix_eq_some, exists_eq_right]
  have asked : queryParams (request.query.getD "") "token" = some t ↔
      ∃ query, request.query = some query ∧ queryParams query "token" = some t := by
    cases request.query with
    | none =>
        have nothing : queryParams "" "token" = none := by decide
        simp [nothing]
    | some query => simp
  have noHeader : request.authorization.bind (stripPrefix "Bearer ") = none ↔
      ∀ rest, request.authorization ≠ some ("Bearer " ++ rest) := by
    rw [Option.eq_none_iff_forall_ne_some]
    exact forall_congr' fun rest => not_congr (bearer rest)
  unfold token
  rw [Option.or_eq_some_iff, bearer, noHeader, asked]
  simp only [queryParams_token]

namespace Sessions

/-- In a run over requests with tokens, every session is of an identity that the token of one of
them was authenticated as. -/
theorem sessions_authenticated (limiter : TenantLimiter) (authenticate : String → Option Identity)
    {requests : List Upgrade} {es : List Event} {s : State}
    (ran : (machine limiter).run start es = some s)
    (arrived : ∀ outcome reached, .request outcome reached ∈ es →
      ∃ request ∈ requests, outcome = request.authenticated authenticate) :
    ∀ session ∈ s.sessions, ∃ request ∈ requests, ∃ t, request.token = some t ∧
      authenticate t = some session.identity := by
  let Authenticated (identity : Identity) : Prop :=
    ∃ request ∈ requests, ∃ t, request.token = some t ∧ authenticate t = some identity
  let Ok (_ : State) (e : Event) : Prop := ∀ outcome reached, e = .request outcome reached →
    ∃ request ∈ requests, outcome = request.authenticated authenticate
  let Inv (s : State) : Prop := ∀ session ∈ s.sessions, Authenticated session.identity
  have init : Inv start := fun session mem => absurd mem (Multiset.notMem_zero _)
  have step : ∀ s e s', Inv s → Ok s e → (machine limiter).step s e = some s' → Inv s' := by
    intro s e s' inv ok next
    rcases step_cases next with ⟨_, _, rfl⟩ | ⟨identity, reached, rfl, rfl⟩ |
      ⟨session, phase, mem, _, _, rfl⟩ | ⟨session, _, _, rfl⟩ | ⟨session, reached, _, _, _, rfl⟩
    · exact inv
    · obtain ⟨request, asked, outcome⟩ := ok _ _ rfl
      obtain ⟨t, token, identified⟩ := Option.bind_eq_some_iff.mp outcome.symm
      rw [requested_eq]
      intro session mem
      simp only at mem
      split at mem
      · rcases Multiset.mem_cons.mp mem with rfl | old
        · exact ⟨request, asked, t, token, identified⟩
        · exact inv session old
      · exact inv session mem
    · intro session' mem'
      rcases Multiset.mem_cons.mp mem' with rfl | other
      · exact inv session mem
      · exact inv session' (Multiset.mem_of_mem_erase other)
    · exact fun session' mem' => inv session' (Multiset.mem_of_mem_erase mem')
    · exact fun session' mem' => inv session' (Multiset.mem_of_mem_erase mem')
  have steps : (machine limiter).Steps Ok start es := by
    apply Machine.steps_of_mem
    rintro e mem _ outcome reached rfl
    exact arrived outcome reached mem
  exact Machine.invariant_steps init step ran steps

end Sessions

end YappaCore
