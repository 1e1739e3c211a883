import Mathlib.Data.List.Basic

/-!
The lexical structure of PostgreSQL statements, with standard strings: words, numbers,
parameters, string constants (plain, with escapes, dollar-quoted), quoted identifiers, operators
one character at a time, comments. A word directly after a number is taken with it.

`read` goes through a text character by character from a `Mode`; `Mode.code` are the modes in
which a parenthesis is one. `scan` follows the parentheses of a text, `closing` finds the end of
what is open, and `depthAfter` follows the parentheses of tokens; `closing_eq_iff`, `read_append` and
`depthAfter_read` connect them. `split` and `parseCondition` read a search condition as a disjunction
of conjunctions, `OR` binding weaker than `AND`.
-/

namespace Lib.Sql

/-! ### Tokens -/

inductive Token where
  | word (text : String)
  | quoted (text : String)
  | number (text : String)
  | parameter (text : String)
  | string (text : String)
  | symbol (c : Char)
deriving DecidableEq, Repr

/-- Whether an escape string was closed last, and whether a line ended since: a quote continues
it then. -/
inductive Gap where
  | none
  | blank
  | line
deriving DecidableEq, Repr

/-- Where a text is being read. -/
inductive Mode where
  | plain (gap : Gap)
  | word (text : List Char)
  | number (text : List Char)
  | parameter (text : List Char)
  | dollar (tag : List Char)
  | dash (gap : Gap)
  | slash
  | constant (escapes : Bool) (content : List Char)
  | escape (content : List Char)
  | quote (escapes : Bool) (content : List Char)
  | ident (content : List Char)
  | identQuote (content : List Char)
  | lineComment (gap : Gap)
  | block (depth : Nat)
  | blockStar (depth : Nat)
  | blockSlash (depth : Nat)
  | dollarText (tag content : List Char) (seen : Option (List Char))
deriving DecidableEq, Repr

def isNewline (c : Char) : Bool := c = '\n' || c = '\r'

def isSpace (c : Char) : Bool := c = ' ' || c = '\t' || isNewline c || c = '\x0b' || c = '\x0c'

/-- A character that starts a word. -/
def isLetter (c : Char) : Bool := c.isAlpha || c = '_' || c.toNat ≥ 128

def Gap.next (c : Char) : Gap → Gap
  | .none => .none
  | .blank => if isNewline c then .line else .blank
  | .line => .line

namespace Mode

/-- The next character is read outside strings, quoted identifiers and comments. A quote may
still turn out to be doubled. -/
def code : Mode → Bool
  | plain _ | word _ | number _ | parameter _ | dollar _ | dash _ | slash | quote _ _
  | identQuote _ => true
  | constant _ _ | escape _ | ident _ | lineComment _ | block _ | blockStar _ | blockSlash _
  | dollarText _ _ _ => false

/-- An unquoted word, folded to lower case. -/
def wordToken (text : List Char) : Token := .word (String.ofList (text.map Char.toLower))

/-- The tokens that are complete once something else follows. -/
def pending : Mode → List Token
  | word text => [wordToken text]
  | number text => [.number (String.ofList text)]
  | parameter text => [.parameter (String.ofList text)]
  | dollar [] => [.symbol '$']
  | dollar (c :: tag) => [.symbol '$', wordToken (c :: tag)]
  | dash _ => [.symbol '-']
  | slash => [.symbol '/']
  | quote _ content => [.string (String.ofList content)]
  | identQuote content => [.quoted (String.ofList content)]
  | plain _ | constant _ _ | escape _ | ident _ | lineComment _ | block _ | blockStar _
  | blockSlash _ | dollarText _ _ _ => []

def gap : Mode → Gap
  | plain gap => gap
  | quote true _ => .blank
  | _ => .none

/-- The first character of what follows. -/
def start (gap : Gap) (c : Char) : List Token × Mode :=
  if isSpace c then ([], plain (gap.next c))
  else if isLetter c then ([], word [c])
  else if c.isDigit then ([], number [c])
  else if c = '$' then ([], dollar [])
  else if c = '\'' then ([], constant (gap = .line) [])
  else if c = '"' then ([], ident [])
  else if c = '-' then ([], dash gap)
  else if c = '/' then ([], slash)
  else ([.symbol c], plain .none)

/-- The character does not belong to what was read before. -/
def leave (m : Mode) (c : Char) : List Token × Mode :=
  (m.pending ++ (start m.gap c).1, (start m.gap c).2)

def isEscapePrefix (text : List Char) : Bool := text = ['e'] || text = ['E']

/-- Read one character. -/
def step (m : Mode) (c : Char) : List Token × Mode :=
  match m with
  | plain _ => m.leave c
  | word text =>
      if isLetter c || c.isDigit || c = '$' then ([], word (text ++ [c]))
      else if c = '\'' && isEscapePrefix text then ([], constant true [])
      else m.leave c
  | number text =>
      if isLetter c || c.isDigit || c = '.' then ([], number (text ++ [c])) else m.leave c
  | parameter text => if c.isDigit then ([], parameter (text ++ [c])) else m.leave c
  | dollar tag =>
      if c = '$' then ([], dollarText tag [] none)
      else if isLetter c || (c.isDigit && tag ≠ []) then ([], dollar (tag ++ [c]))
      else if c.isDigit then ([], parameter [c])
      else if c = '\'' && isEscapePrefix tag then ([.symbol '$'], constant true [])
      else m.leave c
  | dash gap => if c = '-' then ([], lineComment gap) else m.leave c
  | slash => if c = '*' then ([], block 0) else m.leave c
  | constant escapes content =>
      if c = '\'' then ([], quote escapes content)
      else if escapes && c = '\\' then ([], escape content)
      else ([], constant escapes (content ++ [c]))
  | escape content => ([], constant true (content ++ ['\\', c]))
  | quote escapes content => if c = '\'' then ([], constant escapes (content ++ [c])) else m.leave c
  | ident content => if c = '"' then ([], identQuote content) else ([], ident (content ++ [c]))
  | identQuote content => if c = '"' then ([], ident (content ++ [c])) else m.leave c
  | lineComment gap =>
      if isNewline c then ([], plain (gap.next c)) else ([], lineComment gap)
  | block depth =>
      if c = '*' then ([], blockStar depth)
      else if c = '/' then ([], blockSlash depth)
      else ([], block depth)
  | blockStar depth =>
      if c = '/' then ([], if depth = 0 then plain .none else block (depth - 1))
      else if c = '*' then ([], blockStar depth)
      else ([], block depth)
  | blockSlash depth =>
      if c = '*' then ([], block (depth + 1))
      else if c = '/' then ([], blockSlash depth)
      else ([], block depth)
  | dollarText tag content seen =>
      if c = '$' then
        if seen = some tag then
          ([.string (String.ofList (content.take (content.length - tag.length - 1)))], plain .none)
        else ([], dollarText tag (content ++ [c]) (some []))
      else ([], dollarText tag (content ++ [c]) (seen.map (· ++ [c])))

end Mode

/-- Read a text: the tokens that it completes, and the mode it ends in. -/
def read (m : Mode) : List Char → List Token × Mode
  | [] => ([], m)
  | c :: cs =>
      match m.step c with
      | (tokens, next) =>
          match read next cs with
          | (later, last) => (tokens ++ later, last)

/-- The tokens of a statement, if every string, identifier and comment ends. -/
def tokens (sql : List Char) : Option (List Token) :=
  match read (.plain .none) sql with
  | (tokens, .lineComment _) => some tokens
  | (tokens, last) => if last.code then some (tokens ++ last.pending) else none

@[simp] theorem read_nil (m : Mode) : read m [] = ([], m) := rfl

theorem read_cons (m : Mode) (c : Char) (cs : List Char) : read m (c :: cs) =
    ((m.step c).1 ++ (read (m.step c).2 cs).1, (read (m.step c).2 cs).2) := rfl

/-- The tokens that a text completes from its start. -/
def complete (cs : List Char) : List Token := (read (.plain .none) cs).1

theorem read_eq {cs : List Char} {last : Mode} (ends : (read (.plain .none) cs).2 = last) :
    read (.plain .none) cs = (complete cs, last) := by
  rw [← ends]
  rfl

theorem read_append (m : Mode) (cs ds : List Char) : read m (cs ++ ds) =
    ((read m cs).1 ++ (read (read m cs).2 ds).1, (read (read m cs).2 ds).2) := by
  induction cs generalizing m with
  | nil => rfl
  | cons c cs ih =>
      simp only [List.cons_append, read, ih]
      rw [List.append_assoc]

/-- What ends outside of everything has its tokens before those of the rest. -/
theorem tokens_append {first : List Char} {front : List Token}
    (ends : read (.plain .none) first = (front, .plain .none)) (second : List Char) :
    tokens (first ++ second) = (tokens second).map (front ++ ·) := by
  unfold tokens
  rw [read_append, ends]
  obtain ⟨back, last⟩ := read (.plain .none) second
  cases last <;> simp [Mode.code, Mode.pending]

theorem tokens_eq {cs : List Char} {front : List Token}
    (ends : read (.plain .none) cs = (front, .plain .none)) : tokens cs = some front := by
  unfold tokens
  rw [ends]
  simp [Mode.code, Mode.pending]

/-! ### Parentheses -/

/-- The character is a parenthesis of the statement. -/
def isParen (m : Mode) (c paren : Char) : Bool := m.code && c = paren

/-- Follow the parentheses of a text: how deep it ends and in which mode, unless it closes one
that it did not open. -/
def scan (m : Mode) (depth : Nat) : List Char → Option (Mode × Nat)
  | [] => some (m, depth)
  | c :: cs =>
      if isParen m c '(' then scan (m.step c).2 (depth + 1) cs
      else if isParen m c ')' then
        match depth with
        | 0 => none
        | depth + 1 => scan (m.step c).2 depth cs
      else scan (m.step c).2 depth cs

/-- The text up to the parenthesis that closes what is open before it, and the text after. -/
def closing (m : Mode) (depth : Nat) : List Char → Option (List Char × List Char)
  | [] => none
  | c :: cs =>
      if isParen m c '(' then
        (closing (m.step c).2 (depth + 1) cs).map fun parts => (c :: parts.1, parts.2)
      else if isParen m c ')' then
        match depth with
        | 0 => some ([], cs)
        | depth + 1 => (closing (m.step c).2 depth cs).map fun parts => (c :: parts.1, parts.2)
      else (closing (m.step c).2 depth cs).map fun parts => (c :: parts.1, parts.2)

/-- The depth after some tokens, unless they close what they did not open. -/
def depthAfter (depth : Nat) : List Token → Option Nat
  | [] => some depth
  | .symbol '(' :: tokens => depthAfter (depth + 1) tokens
  | .symbol ')' :: tokens =>
      match depth with
      | 0 => none
      | depth + 1 => depthAfter depth tokens
  | _ :: tokens => depthAfter depth tokens

/-- A text stands inside parentheses as it is exactly when it closes all it opens and nothing
else, and ends where a parenthesis is one. -/
theorem closing_eq_iff (m : Mode) (depth : Nat) (cs rest : List Char) :
    closing m depth (cs ++ ')' :: rest) = some (cs, rest) ↔
      ∃ last, scan m depth cs = some (last, 0) ∧ last.code = true := by
  induction cs generalizing m depth with
  | nil =>
      simp only [List.nil_append, closing, scan, isParen]
      cases code : m.code with
      | false => simp [code]
      | true => cases depth <;> simp [code]
  | cons c cs ih =>
      have inside : ∀ (m : Mode) (depth : Nat),
          ((closing m depth (cs ++ ')' :: rest)).map fun parts => (c :: parts.1, parts.2)) =
            some (c :: cs, rest) ↔ closing m depth (cs ++ ')' :: rest) = some (cs, rest) := by
        intro m depth
        simp [Option.map_eq_some_iff]
      simp only [List.cons_append, closing, scan]
      split
      · rw [inside, ih]
      · split
        · cases depth with
          | zero => simp
          | succ depth => simp only [inside, ih]
        · rw [inside, ih]

/-- In code, a parenthesis ends what was read before it. -/
theorem step_paren {m : Mode} (code : m.code = true) {c : Char} (paren : c = '(' ∨ c = ')') :
    m.step c = (m.pending ++ [.symbol c], .plain .none) := by
  rcases paren with rfl | rfl <;> cases m <;>
    simp_all [Mode.code, Mode.step, Mode.leave, Mode.start, isSpace, isNewline, isLetter]

theorem depthAfter_append (depth : Nat) (first second : List Token) :
    depthAfter depth (first ++ second) = (depthAfter depth first).bind (depthAfter · second) := by
  fun_induction depthAfter depth first with
  | case1 => rfl
  | case2 depth tokens ih => rw [List.cons_append, depthAfter, ih]
  | case3 tokens => rfl
  | case4 tokens depth ih => rw [List.cons_append, depthAfter, ih]
  | case5 depth token tokens opens closes ih => rw [List.cons_append, depthAfter, ih] <;> assumption

theorem depthAfter_pending (depth : Nat) (m : Mode) : depthAfter depth m.pending = some depth := by
  cases m with
  | dollar tag => cases tag <;> rfl
  | _ => rfl

theorem depthAfter_start (depth : Nat) (gap : Gap) {c : Char} (other : c ≠ '(' ∧ c ≠ ')') :
    depthAfter depth (Mode.start gap c).1 = some depth := by
  have symbol : depthAfter depth [.symbol c] = some depth := by
    rw [depthAfter]
    · rfl
    · exact fun same => other.1 (Token.symbol.inj same)
    · exact fun same => other.2 (Token.symbol.inj same)
  unfold Mode.start
  repeat' split
  all_goals first | exact symbol | rfl

/-- A character that is no parenthesis of the statement completes tokens without parentheses. -/
theorem depthAfter_step (depth : Nat) {m : Mode} {c : Char} (opens : isParen m c '(' = false)
    (closes : isParen m c ')' = false) : depthAfter depth (m.step c).1 = some depth := by
  have leaves : m.code = true → depthAfter depth (m.leave c).1 = some depth := by
    intro code
    have other : c ≠ '(' ∧ c ≠ ')' := by simpa [isParen, code] using And.intro opens closes
    rw [Mode.leave, depthAfter_append, depthAfter_pending, Option.bind_some,
      depthAfter_start depth _ other]
  cases m <;> simp only [Mode.step] <;> repeat' split
  all_goals first | exact leaves rfl | rfl

/-- The tokens of a text go as deep as its characters. -/
theorem depthAfter_read {m last : Mode} {depth depth' : Nat} {cs : List Char}
    (scanned : scan m depth cs = some (last, depth')) :
    (read m cs).2 = last ∧ depthAfter depth (read m cs).1 = some depth' := by
  induction cs generalizing m depth with
  | nil =>
      obtain ⟨rfl, rfl⟩ := Prod.mk.inj (Option.some.inj scanned)
      exact ⟨rfl, rfl⟩
  | cons c cs ih =>
      simp only [scan] at scanned
      simp only [read, depthAfter_append]
      split at scanned
      · rename_i opens
        obtain ⟨code, rfl⟩ : m.code = true ∧ c = '(' := by simpa [isParen] using opens
        obtain ⟨mode, deep⟩ := ih scanned
        refine ⟨mode, ?_⟩
        rw [step_paren code (.inl rfl)] at deep ⊢
        rw [depthAfter_append, depthAfter_pending]
        exact deep
      · rename_i opens
        split at scanned
        · rename_i closes
          obtain ⟨code, rfl⟩ : m.code = true ∧ c = ')' := by simpa [isParen] using closes
          cases depth with
          | zero => simp at scanned
          | succ depth =>
              obtain ⟨mode, deep⟩ := ih scanned
              refine ⟨mode, ?_⟩
              rw [step_paren code (.inr rfl)] at deep ⊢
              rw [depthAfter_append, depthAfter_pending]
              exact deep
        · rename_i closes
          obtain ⟨mode, deep⟩ := ih scanned
          refine ⟨mode, ?_⟩
          rw [depthAfter_step depth (by simpa using opens) (by simpa using closes)]
          exact deep

/-- A digit is no other character that matters. -/
theorem of_isDigit {c : Char} (digit : c.isDigit = true) :
    isSpace c = false ∧ isLetter c = false ∧ c ≠ '(' ∧ c ≠ ')' := by
  obtain ⟨low, high⟩ := Char.isDigit_iff_toNat.mp digit
  have zero : '0'.toNat = 48 := rfl
  have nine : '9'.toNat = 57 := rfl
  have apart : ∀ d : Char, d.toNat < 48 ∨ 57 < d.toNat → c ≠ d := by
    rintro d far rfl
    omega
  have alpha : c.isAlpha = false := by
    have capital : 'A'.toNat = 65 := rfl
    have small : 'a'.toNat = 97 := rfl
    change (decide ('A'.val ≤ c.val ∧ c.val ≤ 'Z'.val) ||
      decide ('a'.val ≤ c.val) && decide (c.val ≤ 'z'.val)) = false
    simp only [UInt32.le_iff_toNat_le, Char.toNat_val, Bool.or_eq_false_iff, Bool.and_eq_false_iff,
      decide_eq_false_iff_not]
    omega
  refine ⟨?_, ?_, apart _ (by decide), apart _ (by decide)⟩
  · have blanks := And.intro (apart ' ' (by decide)) (apart '\t' (by decide))
    have ends := And.intro (apart '\n' (by decide)) (apart '\r' (by decide))
    have feeds := And.intro (apart '\x0b' (by decide)) (apart '\x0c' (by decide))
    simp [isSpace, isNewline, blanks, ends, feeds]
  · have wide : ¬ c.toNat ≥ 128 := by omega
    simp [isLetter, alpha, wide, apart '_' (by decide)]

/-- The digits of a number are taken together. -/
theorem read_digits {digits : List Char} (all : ∀ c ∈ digits, c.isDigit = true) (text : List Char) :
    read (.number text) digits = ([], .number (text ++ digits)) ∧
      scan (.number text) 0 digits = some (.number (text ++ digits), 0) := by
  induction digits generalizing text with
  | nil => simp [scan]
  | cons c cs ih =>
      have digit : c.isDigit = true := all c List.mem_cons_self
      have step : (Mode.number text).step c = ([], .number (text ++ [c])) := by
        simp [Mode.step, digit]
      have other := of_isDigit digit
      obtain ⟨tokens, scanned⟩ := ih (fun c mem => all c (List.mem_cons_of_mem _ mem)) (text ++ [c])
      rw [List.append_assoc, List.singleton_append] at tokens scanned
      constructor
      · rw [read_cons, step, tokens]
        rfl
      · rw [scan, step, scanned]
        simp [isParen, other]

/-- A number is read as one token. -/
theorem read_number {digits : List Char} (some : digits ≠ [])
    (all : ∀ c ∈ digits, c.isDigit = true) (gap : Gap) :
    read (.plain gap) digits = ([], .number digits) ∧
      scan (.plain gap) 0 digits = .some (.number digits, 0) := by
  cases digits with
  | nil => exact absurd rfl some
  | cons c cs =>
      have digit : c.isDigit = true := all c List.mem_cons_self
      have other := of_isDigit digit
      have step : (Mode.plain gap).step c = ([], .number [c]) := by
        simp [Mode.step, Mode.leave, Mode.pending, Mode.start, other, digit]
      obtain ⟨tokens, scanned⟩ := read_digits (fun c mem => all c (List.mem_cons_of_mem _ mem)) [c]
      constructor
      · rw [read_cons, step, tokens]
        rfl
      · rw [scan, step, scanned]
        simp [isParen, other]

/-! ### Search conditions -/

/-- The depth after a token. -/
def Token.deeper (depth : Nat) : Token → Nat
  | .symbol '(' => depth + 1
  | .symbol ')' => depth - 1
  | _ => depth

/-- The parts of some tokens between the separators outside parentheses. -/
def split (separator : Token) (depth : Nat) : List Token → List (List Token)
  | [] => [[]]
  | token :: tokens =>
      if depth = 0 ∧ token = separator then [] :: split separator 0 tokens
      else (split separator (token.deeper depth) tokens).modifyHead (token :: ·)

/-- Nothing is split off inside parentheses. -/
theorem split_inside (separator : Token) {depth depth' : Nat} {inside : List Token}
    (balanced : depthAfter depth inside = some depth') (rest : List Token) :
    split separator (depth + 1) (inside ++ rest) =
      (split separator (depth' + 1) rest).modifyHead (inside ++ ·) := by
  have step : ∀ (token : Token) (depth : Nat) (tokens : List Token),
      split separator (depth + 1) (token :: tokens) =
        (split separator (token.deeper (depth + 1)) tokens).modifyHead (token :: ·) :=
    fun token depth tokens => if_neg (by simp)
  fun_induction depthAfter depth inside with
  | case1 depth =>
      obtain rfl := Option.some.inj balanced
      rw [List.nil_append]
      cases split separator (depth + 1) rest <;> rfl
  | case2 depth tokens ih =>
      rw [List.cons_append, step]
      simp only [Token.deeper, ih balanced, List.modifyHead_modifyHead]
      rfl
  | case3 tokens => simp at balanced
  | case4 tokens depth ih =>
      rw [List.cons_append, step]
      simp only [Token.deeper, Nat.add_sub_cancel, ih balanced, List.modifyHead_modifyHead]
      rfl
  | case5 depth token tokens opens closes ih =>
      have same : token.deeper (depth + 1) = depth + 1 := by
        unfold Token.deeper
        split
        · exact absurd rfl opens
        · exact absurd rfl closes
        · rfl
      rw [List.cons_append, step, same, ih balanced, List.modifyHead_modifyHead]
      rfl

/-- A search condition over some primary conditions: a disjunction of conjunctions. -/
def parseCondition {P : Type} (primary : List Token → Option P) (tokens : List Token) :
    Option (List (List P)) :=
  (split (.word "or") 0 tokens).mapM fun part => (split (.word "and") 0 part).mapM primary

/-- A row meets a condition. -/
def Holds {R : Type} (condition : List (List (R → Bool))) (row : R) : Bool :=
  condition.any fun conjunction => conjunction.all fun primary => primary row

/-- The tokens between two given ends. -/
def between (front back tokens : List Token) : Option (List Token) :=
  let rest := tokens.drop front.length
  if front.isPrefixOf tokens ∧ back.isSuffixOf rest then some (rest.take (rest.length - back.length))
  else none

theorem between_append (front middle back : List Token) :
    between front back (front ++ (middle ++ back)) = some middle := by
  unfold between
  simp

end Lib.Sql
