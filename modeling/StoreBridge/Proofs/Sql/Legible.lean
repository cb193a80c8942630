import StoreBridge.Proofs.Sql.Lexeme

/-!
Tokens that can be written side by side. A list of tokens is legible when each is spelled as its
kind asks and no two neighbours fuse. The text of a legible list reads as the lexemes of its
tokens, whatever the names, the literals and the parameters in it hold.
-/
namespace StoreBridge.Sql
open Lexeme

namespace Token

/-- The lexeme of a token, with a parameter under its number. A space has none. -/
def lexeme (d : Dialect) (index : Nat) : Token → List (Lexeme String)
  | .word text => [.word text]
  | .symbol text => [.symbol text]
  | .number text => [.number text]
  | .space => []
  | .name text => [.name text]
  | .literal text => [.literal text]
  | .parameter _ => [.placeholder (d.placeholder index)]

def lexemes (d : Dialect) : Nat → List Token → List (Lexeme String)
  | _, [] => []
  | index, token :: rest =>
    token.lexeme d index ++
      lexemes d (if token.parameter?.isSome then index + 1 else index) rest

def isPunctuation (text : String) : Bool :=
  match text.toList with
  | [c] => isMark c
  | _ => false

def isSpelled : Token → Bool
  | .word text =>
    match text.toList with
    | [] => false
    | c :: rest => startsWord c && rest.all isWordChar
  | .number text =>
    match text.toList with
    | [] => false
    | c :: rest => startsNumber c && rest.all fun c => isWordChar c || c == '.'
  | .symbol text => isPunctuation text || (!text.toList.isEmpty && text.toList.all isOperator)
  | _ => true

def kind : Token → Kind
  | .word _ | .parameter _ => .word
  | .symbol text =>
    if text = "." then .point else if isPunctuation text then .mark else .operator
  | .number _ => .number
  | .space => .gap
  | .name _ => .name
  | .literal _ => .literal

def Apart (a b : Token) : Prop := a.kind.fuses b.kind = false

instance (a b : Token) : Decidable (Apart a b) := inferInstanceAs (Decidable (_ = _))

structure Legible (tokens : List Token) : Prop where
  spelled : ∀ token ∈ tokens, token.isSpelled
  apart : tokens.IsChain Apart

def state (d : Dialect) (index : Nat) : Token → State
  | .word text | .number text => .run text.toList
  | .symbol text =>
    if isPunctuation text then .mark (text.toList.headD ' ') else .operator text.toList
  | .space => .gap
  | .name text => .closed d.quotes.2 text.toList
  | .literal text => .closed '\'' text.toList
  | .parameter _ => .run (d.placeholder index).toList

end Token

/-! What the reader does with the characters of one token. -/

theorem scan_run {d : Dialect} {read cs rest : List Char} (more : ∀ c ∈ cs, continues read c)
    (begun : read ≠ []) : scan d (.run read) (cs ++ rest) = scan d (.run (read ++ cs)) rest := by
  induction cs generalizing read with
  | nil => simp
  | cons c cs ih =>
    obtain ⟨first, tail, rfl⟩ := List.exists_cons_of_ne_nil begun
    have step := more c (by simp)
    have later : ∀ x ∈ cs, continues (first :: tail ++ [c]) x := fun x mem => by
      simpa [continues] using more x (by simp [mem])
    simp only [List.cons_append] at later
    simp only [List.cons_append, scan, State.continue?, step, if_true]
    rw [ih later (by simp)]
    simp

theorem scan_operator {d : Dialect} {read cs rest : List Char} (more : ∀ c ∈ cs, isOperator c) :
    scan d (.operator read) (cs ++ rest) = scan d (.operator (read ++ cs)) rest := by
  induction cs generalizing read with
  | nil => simp
  | cons c cs ih =>
    simp only [List.cons_append, scan, State.continue?, more c (by simp), if_true]
    rw [ih fun x mem => more x (by simp [mem])]
    simp

theorem scan_quotedName {d : Dialect} {close : Char} {read cs rest : List Char}
    (other : close ≠ '\'') :
    scan d (.quoted close read) (Dialect.doubleClosing close cs ++ close :: rest) =
      scan d (.closed close (read ++ cs)) rest := by
  induction cs generalizing read with
  | nil => simp [Dialect.doubleClosing, scan, State.continue?]
  | cons c cs ih =>
    by_cases same : c = close
    · subst same
      simp only [Dialect.doubleClosing, List.cons_append, scan, State.continue?, if_true]
      rw [ih]
      simp
    · simp only [Dialect.doubleClosing, if_neg same, List.cons_append, scan, State.continue?,
        other, false_and, and_false, if_false]
      rw [ih]
      simp

theorem scan_quotedLiteral {d : Dialect} {read cs rest : List Char} :
    scan d (.quoted '\'' read) (Token.literalBody d cs ++ '\'' :: rest) =
      scan d (.closed '\'' (read ++ cs)) rest := by
  induction cs generalizing read with
  | nil => simp [Token.literalBody, scan, State.continue?]
  | cons c cs ih =>
    by_cases quote : c = '\''
    · subst quote
      have doubled : Token.escapes d '\'' = true := by cases d <;> rfl
      simp only [Token.literalBody, doubled, if_true, List.cons_append, scan, State.continue?]
      rw [ih]
      simp
    · by_cases slash : c = '\\' ∧ d = .mysql
      · obtain ⟨rfl, rfl⟩ := slash
        simp [Token.literalBody, Token.escapes, scan, State.continue?, unescaped, ih]
      · have plain : Token.escapes d c = false := by
          cases d <;> simp_all [Token.escapes]
        have step :
            State.continue? d (.quoted '\'' read) c = some (.quoted '\'' (read ++ [c])) := by
          simp [State.continue?, quote, slash]
        simp only [Token.literalBody, plain, List.cons_append, scan, step, Bool.false_eq_true,
          if_false]
        rw [ih]
        simp

/-! Where a lexeme begins, and what it would take in. -/

def Lexeme.Kind.begins (d : Dialect) : Kind → Char → Bool
  | .gap, c => c == ' '
  | .mark, c => isMark c && c != '.'
  | .point, c => c == '.'
  | .operator, c => isOperator c
  | .word, c => startsWord c || startsPlaceholder c
  | .number, c => startsNumber c
  | .name, c => c == d.quotes.1
  | .literal, c => c == '\''

def Lexeme.Kind.absorbs (d : Dialect) : Kind → Char → Bool
  | .word, c => isWordChar c
  | .number, c => isWordChar c || c == '.'
  | .operator, c => isOperator c
  | .name, c => c == d.quotes.2
  | .literal, c => c == '\''
  | .gap, _ | .mark, _ | .point, _ => false

theorem apart_absorbs_not {d : Dialect} {left right : Kind} {c : Char}
    (apart : left.fuses right = false) (first : right.begins d c) : left.absorbs d c = false := by
  -- Either class that is a list of characters leaves nothing but closed cases.
  cases right with
  | gap | point | literal | name =>
    simp only [Kind.begins, beq_iff_eq] at first
    subst first
    cases left <;> cases d <;> simp_all +decide
  | mark =>
    simp only [Kind.begins, isMark, Bool.and_eq_true, Bool.or_eq_true, beq_iff_eq] at first
    obtain ⟨((((rfl | rfl) | rfl) | rfl) | rfl), other⟩ := first <;>
      cases left <;> cases d <;> simp_all +decide
  | operator =>
    simp only [Kind.begins, isOperator, Bool.or_eq_true, beq_iff_eq] at first
    obtain (((rfl | rfl) | rfl) | rfl) := first <;>
      cases left <;> cases d <;> simp_all +decide
  | word | number =>
    by_contra taken
    rw [Bool.not_eq_false] at taken
    cases left with
    | word | number => simp [Kind.fuses] at apart
    | gap | mark | point => simp [Kind.absorbs] at taken
    | operator =>
      simp only [Kind.absorbs, isOperator, Bool.or_eq_true, beq_iff_eq] at taken
      obtain (((rfl | rfl) | rfl) | rfl) := taken <;> cases d <;> exact absurd first (by decide)
    | name | literal =>
      simp only [Kind.absorbs, beq_iff_eq] at taken
      subst taken
      cases d <;> exact absurd first (by decide)

theorem start_run {d : Dialect} {c : Char} (first : startsRun c) :
    State.start? d c = some (.run [c]) := by
  unfold State.start?
  split_ifs with blank quote apostrophe mark operator
  · simp only [isBlank, Bool.or_eq_true, beq_iff_eq] at blank
    obtain (((rfl | rfl) | rfl) | rfl) := blank <;> simp +decide at first
  · subst quote
    cases d <;> simp +decide at first
  · subst apostrophe
    simp +decide at first
  · simp only [isMark, Bool.or_eq_true, beq_iff_eq] at mark
    obtain ((((rfl | rfl) | rfl) | rfl) | rfl) := mark <;> simp +decide at first
  · simp only [isOperator, Bool.or_eq_true, beq_iff_eq] at operator
    obtain (((rfl | rfl) | rfl) | rfl) := operator <;> simp +decide at first
  · rfl

theorem start_mark {d : Dialect} {c : Char} (first : isMark c) :
    State.start? d c = some (.mark c) := by
  simp only [isMark, Bool.or_eq_true, beq_iff_eq] at first
  obtain ((((rfl | rfl) | rfl) | rfl) | rfl) := first <;> cases d <;> rfl

theorem start_operator {d : Dialect} {c : Char} (first : isOperator c) :
    State.start? d c = some (.operator [c]) := by
  simp only [isOperator, Bool.or_eq_true, beq_iff_eq] at first
  obtain (((rfl | rfl) | rfl) | rfl) := first <;> cases d <;> rfl

theorem start_name {d : Dialect} : State.start? d d.quotes.1 = some (.quoted d.quotes.2 []) := by
  cases d <;> rfl

theorem start_literal {d : Dialect} : State.start? d '\'' = some (.quoted '\'' []) := by
  cases d <;> rfl

theorem placeholder_chars (d : Dialect) (index : Nat) :
    ∃ c cs, (d.placeholder index).toList = c :: cs ∧ startsPlaceholder c ∧
      ∀ x ∈ cs, isWordChar x := by
  have digits : ∀ x ∈ (toString index).toList, isWordChar x := by
    intro x mem
    rw [Nat.toString_eq_repr, Nat.toList_repr] at mem
    have digit := Nat.isDigit_of_mem_toDigits (by decide) (by decide) mem
    simp [isWordChar, Char.isAlphanum, digit]
  cases d with
  | postgres => exact ⟨'$', _, by simp [Dialect.placeholder, String.toList_append], rfl, digits⟩
  | mssql =>
    refine ⟨'@', 'p' :: (toString index).toList, ?_, rfl, ?_⟩
    · simp [Dialect.placeholder, String.toList_append]
    · intro x mem
      rcases List.mem_cons.mp mem with rfl | mem
      · decide
      · exact digits x mem
  | mysql | sqlite | document => exact ⟨'?', [], by simp [Dialect.placeholder], rfl, by simp⟩

theorem word_not_number {c : Char} (first : startsWord c) : startsNumber c = false := by
  by_contra number
  delta startsWord Char.isAlpha Char.isUpper Char.isLower at first
  simp only [startsNumber, Char.isDigit, Bool.or_eq_true, Bool.and_eq_true, decide_eq_true_eq,
    beq_iff_eq, UInt32.le_iff_toNat_le, ge_iff_le, Bool.not_eq_false] at first number
  rcases number with digit | rfl
  · rcases first with letter | rfl
    · simp at letter digit
      omega
    · simp at digit
  · simp at first

theorem placeholder_not_number {c : Char} (first : startsPlaceholder c) :
    startsNumber c = false := by
  simp only [startsPlaceholder, Bool.or_eq_true, beq_iff_eq] at first
  obtain ((rfl | rfl) | rfl) := first <;> rfl

theorem word_not_placeholder {c : Char} (first : startsWord c) : startsPlaceholder c = false := by
  by_contra mark
  simp only [startsPlaceholder, Bool.or_eq_true, beq_iff_eq, Bool.not_eq_false] at mark
  obtain ((rfl | rfl) | rfl) := mark <;> exact absurd first (by decide)

namespace Token

theorem word_chars {text : String} (spelled : (Token.word text).isSpelled) :
    ∃ c cs, text.toList = c :: cs ∧ startsWord c ∧ ∀ x ∈ cs, isWordChar x := by
  cases h : text.toList with
  | nil => simp [isSpelled, h] at spelled
  | cons c cs =>
    simp only [isSpelled, h, Bool.and_eq_true, List.all_eq_true] at spelled
    exact ⟨c, cs, rfl, spelled⟩

theorem number_chars {text : String} (spelled : (Token.number text).isSpelled) :
    ∃ c cs, text.toList = c :: cs ∧ startsNumber c ∧ ∀ x ∈ cs, isWordChar x || x == '.' := by
  cases h : text.toList with
  | nil => simp [isSpelled, h] at spelled
  | cons c cs =>
    simp only [isSpelled, h, Bool.and_eq_true, List.all_eq_true] at spelled
    exact ⟨c, cs, rfl, spelled⟩

theorem punctuation_chars {text : String} (single : isPunctuation text) :
    ∃ c, text.toList = [c] ∧ isMark c := by
  unfold isPunctuation at single
  split at single
  · rename_i c same
    exact ⟨c, same, single⟩
  · simp at single

theorem operator_chars {text : String} (spelled : (Token.symbol text).isSpelled)
    (longer : ¬isPunctuation text) :
    ∃ c cs, text.toList = c :: cs ∧ isOperator c ∧ ∀ x ∈ cs, isOperator x := by
  simp only [isSpelled, longer, Bool.false_or, Bool.and_eq_true, List.all_eq_true] at spelled
  cases h : text.toList with
  | nil => simp [h] at spelled
  | cons c cs =>
    rw [h] at spelled
    exact ⟨c, cs, rfl, spelled.2 c (by simp), fun x mem => spelled.2 x (by simp [mem])⟩

theorem state_done {d : Dialect} {index : Nat} {token : Token} (spelled : token.isSpelled) :
    (token.state d index).done = token.lexeme d index := by
  cases token with
  | word text =>
    obtain ⟨c, cs, chars, first, _⟩ := word_chars spelled
    have whole : String.ofList (c :: cs) = text := by rw [← chars, String.ofList_toList]
    simp [state, State.done, lexeme, ofRun, chars, word_not_number first,
      word_not_placeholder first, whole]
  | number text =>
    obtain ⟨c, cs, chars, first, _⟩ := number_chars spelled
    have whole : String.ofList (c :: cs) = text := by rw [← chars, String.ofList_toList]
    simp [state, State.done, lexeme, ofRun, chars, first, whole]
  | symbol text =>
    by_cases single : isPunctuation text
    · obtain ⟨c, chars, _⟩ := punctuation_chars single
      have whole : String.singleton c = text := by
        rw [String.singleton_eq_ofList, ← chars, String.ofList_toList]
      simp [state, single, State.done, lexeme, chars, whole]
    · simp [state, single, State.done, lexeme]
  | space => rfl
  | name text => cases d <;> simp [state, State.done, lexeme, Dialect.quotes]
  | literal text => simp [state, State.done, lexeme]
  | parameter value =>
    obtain ⟨c, cs, chars, first, _⟩ := placeholder_chars d index
    have whole : String.ofList (c :: cs) = d.placeholder index := by
      rw [← chars, String.ofList_toList]
    simp [state, State.done, lexeme, ofRun, chars, first, placeholder_not_number first, whole]

theorem state_closed (d : Dialect) (index : Nat) (token : Token) :
    (token.state d index).isOpen = false := by
  cases token with
  | symbol text => simp only [state]; split <;> rfl
  | _ => rfl

theorem state_stops {d : Dialect} (index : Nat) {token : Token} {c : Char}
    (spelled : token.isSpelled) (free : token.kind.absorbs d c = false) :
    (token.state d index).continue? d c = none := by
  cases token with
  | word text =>
    obtain ⟨first, cs, chars, letter, _⟩ := word_chars spelled
    simp_all [state, State.continue?, continues, kind, Kind.absorbs, word_not_number letter]
  | number text =>
    obtain ⟨first, cs, chars, digit, _⟩ := number_chars spelled
    simp_all [state, State.continue?, continues, kind, Kind.absorbs]
  | symbol text =>
    by_cases single : isPunctuation text
    · simp [state, single, State.continue?]
    · have long : text ≠ "." := by rintro rfl; simp +decide at single
      simp_all [state, State.continue?, kind, Kind.absorbs]
  | space => rfl
  | name text => simp_all [state, State.continue?, kind, Kind.absorbs]
  | literal text => simp_all [state, State.continue?, kind, Kind.absorbs]
  | parameter value =>
    obtain ⟨first, cs, chars, mark, _⟩ := placeholder_chars d index
    simp_all [state, State.continue?, continues, kind, Kind.absorbs, placeholder_not_number mark]

theorem chars_begin {d : Dialect} (index : Nat) {token : Token} (sql : d.isSql)
    (spelled : token.isSpelled) :
    ∃ c cs begun, token.chars d index = c :: cs ∧ token.kind.begins d c ∧
      State.start? d c = some begun ∧
      ∀ rest, scan d begun (cs ++ rest) = scan d (token.state d index) rest := by
  cases token with
  | word text =>
    obtain ⟨c, cs, chars, first, more⟩ := word_chars spelled
    refine ⟨c, cs, _, chars, by simp [kind, Kind.begins, first],
      start_run (by simp [startsRun, first]), fun rest => ?_⟩
    rw [scan_run (fun x mem => by simp [continues, more x mem]) (by simp)]
    simp [state, chars]
  | number text =>
    obtain ⟨c, cs, chars, first, more⟩ := number_chars spelled
    refine ⟨c, cs, _, chars, by simp [kind, Kind.begins, first],
      start_run (by simp [startsRun, first]), fun rest => ?_⟩
    rw [scan_run (fun x mem => by simpa [continues, first] using more x mem) (by simp)]
    simp [state, chars]
  | symbol text =>
    by_cases single : isPunctuation text
    · obtain ⟨c, chars, mark⟩ := punctuation_chars single
      refine ⟨c, [], _, by simp [Token.chars, chars], ?_, start_mark mark, fun rest => ?_⟩
      · by_cases point : text = "."
        · subst point
          simp at chars
          simp [kind, Kind.begins, ← chars]
        · have other : c ≠ '.' := by
            rintro rfl
            exact point (String.toList_inj.mp chars)
          simp [kind, single, point, Kind.begins, mark, other]
      · simp [state, single, chars]
    · obtain ⟨c, cs, chars, first, more⟩ := operator_chars spelled single
      have long : text ≠ "." := by rintro rfl; simp +decide at single
      refine ⟨c, cs, _, chars, ?_, start_operator first, fun rest => ?_⟩
      · simp [kind, long, single, Kind.begins, first]
      · rw [scan_operator more]
        simp [state, single, chars]
  | space => exact ⟨' ', [], .gap, rfl, rfl, by cases d <;> rfl, fun rest => rfl⟩
  | name text =>
    refine ⟨d.quotes.1, Dialect.doubleClosing d.quotes.2 text.toList ++ [d.quotes.2], _, ?_, ?_,
      start_name, fun rest => ?_⟩
    · simp [chars, Dialect.quoteName, sql]
    · simp [kind, Kind.begins]
    · have other : d.quotes.2 ≠ '\'' := by cases d <;> decide
      rw [List.append_assoc, List.singleton_append, scan_quotedName other]
      simp [state]
  | literal text =>
    refine ⟨'\'', literalBody d text.toList ++ ['\''], _, ?_, rfl, start_literal, fun rest => ?_⟩
    · simp [chars]
    · rw [List.append_assoc, List.singleton_append, scan_quotedLiteral]
      simp [state]
  | parameter value =>
    obtain ⟨c, cs, chars, first, more⟩ := placeholder_chars d index
    refine ⟨c, cs, _, chars, by simp [kind, Kind.begins, first],
      start_run (by simp [startsRun, first]), fun rest => ?_⟩
    rw [scan_run (fun x mem => by simp [continues, more x mem]) (by simp)]
    simp [state, chars]

theorem scan_token {d : Dialect} {index next : Nat} {before token : Token} {rest : List Char}
    (sql : d.isSql) (known : before.isSpelled) (spelled : token.isSpelled)
    (apart : Apart before token) :
    scan d (before.state d index) (token.chars d next ++ rest) =
      (scan d (token.state d next) rest).map (before.lexeme d index ++ ·) := by
  obtain ⟨c, cs, begun, chars, first, entered, through⟩ := chars_begin next sql spelled
  have stops := state_stops index known (apart_absorbs_not apart first)
  rw [chars, List.cons_append]
  simp only [scan, stops, entered, Option.bind_some, through, state_done known]

theorem scan_render {d : Dialect} (index next : Nat) {before : Token} {tokens : List Token}
    (sql : d.isSql) (spelled : ∀ token ∈ before :: tokens, token.isSpelled)
    (apart : (before :: tokens).IsChain Apart) :
    scan d (before.state d index) (render d next tokens) =
      some (before.lexeme d index ++ lexemes d next tokens) := by
  induction tokens generalizing before index next with
  | nil =>
    have known := spelled before (by simp)
    simp [render, lexemes, scan, state_closed, state_done known]
  | cons token rest ih =>
    obtain ⟨near, far⟩ := List.isChain_cons_cons.mp apart
    have known := spelled before (by simp)
    have fresh := spelled token (by simp)
    rw [render, scan_token sql known fresh near]
    rw [ih next _ (fun t mem => spelled t (by simp_all)) far]
    simp [lexemes]

/-- The text of legible tokens reads as their lexemes. -/
theorem ofText_render {d : Dialect} {index : Nat} {tokens : List Token} (sql : d.isSql)
    (legible : Legible tokens) :
    Lexeme.ofText d (String.ofList (render d index tokens)) = some (lexemes d index tokens) := by
  have spelled : ∀ token ∈ Token.space :: tokens, token.isSpelled := by
    simpa [isSpelled] using legible.spelled
  have apart : (Token.space :: tokens).IsChain Apart := by
    cases tokens with
    | nil => simp
    | cons token rest => exact List.isChain_cons_cons.mpr ⟨rfl, legible.apart⟩
  have read := scan_render 0 index sql spelled apart
  simpa [Lexeme.ofText, state, lexeme] using read

/-! How legible lists are put together. -/

def isSolo (token : Token) : Bool :=
  token.isSpelled && (token.kind == .gap || token.kind == .mark)

theorem solo_apart {a b : Token} (solo : a.isSolo ∨ b.isSolo) : Apart a b := by
  unfold Apart
  simp only [isSolo, Bool.and_eq_true, Bool.or_eq_true, beq_iff_eq] at solo
  obtain (⟨_, h | h⟩ | ⟨_, h | h⟩) := solo <;> rw [h] <;>
    first | rfl | (generalize a.kind = k; cases k <;> rfl)

theorem legible_nil : Legible [] := ⟨by simp, by simp⟩

theorem legible_append {a b : List Token} (left : Legible a) (right : Legible b)
    (near : ∀ x ∈ a.getLast?, ∀ y ∈ b.head?, Apart x y) : Legible (a ++ b) := by
  refine ⟨fun token mem => ?_, List.isChain_append.mpr ⟨left.apart, right.apart, near⟩⟩
  rcases List.mem_append.mp mem with mem | mem
  · exact left.spelled token mem
  · exact right.spelled token mem

theorem legible_singleton {token : Token} (spelled : token.isSpelled) : Legible [token] :=
  ⟨by simpa using spelled, by simp⟩

theorem legible_solo_cons {token : Token} {rest : List Token} (solo : token.isSolo)
    (right : Legible rest) : Legible (token :: rest) := by
  have spelled : token.isSpelled := by
    simp only [isSolo, Bool.and_eq_true] at solo
    exact solo.1
  refine legible_append (a := [token]) (legible_singleton spelled) right ?_
  intro x mx y _
  simp only [List.getLast?_singleton, Option.mem_def, Option.some.injEq] at mx
  exact solo_apart (Or.inl (mx ▸ solo))

theorem legible_around {token : Token} {a b : List Token} (solo : token.isSolo)
    (left : Legible a) (right : Legible b) : Legible (a ++ token :: b) := by
  refine legible_append left (legible_solo_cons solo right) ?_
  intro x _ y my
  simp only [List.head?_cons, Option.mem_def, Option.some.injEq] at my
  exact solo_apart (Or.inr (my ▸ solo))

theorem legible_cons_solo {first token : Token} {rest : List Token} (solo : token.isSolo)
    (spelled : first.isSpelled) (right : Legible rest) : Legible (first :: token :: rest) :=
  legible_around (a := [first]) solo (legible_singleton spelled) right

theorem legible_inParens {tokens : List Token} (inner : Legible tokens) :
    Legible (inParens tokens) :=
  legible_solo_cons (by decide) (legible_around (by decide) inner legible_nil)

theorem legible_joined {between : List Token} {parts : List (List Token)}
    (opens : between.head?.any isSolo) (closes : between.getLast?.any isSolo)
    (middle : Legible between) (each : ∀ part ∈ parts, Legible part) :
    Legible (List.intercalate between parts) := by
  have filled : between ≠ [] := by
    rintro rfl
    simp at opens
  induction parts with
  | nil => exact legible_nil
  | cons part rest ih =>
    cases rest with
    | nil => simpa using each part (by simp)
    | cons next rest =>
      rw [List.intercalate_cons_cons]
      have tail := ih fun p mem => each p (by simp [mem])
      refine legible_append (legible_append (each part (by simp)) middle ?_) tail ?_
      · intro x _ y my
        rw [Option.mem_def] at my
        rw [my] at opens
        exact solo_apart (Or.inr opens)
      · intro x mx y _
        rw [List.getLast?_append_of_ne_nil _ filled, Option.mem_def] at mx
        rw [mx] at closes
        exact solo_apart (Or.inl closes)

theorem legible_spaced {parts : List (List Token)} (each : ∀ part ∈ parts, Legible part) :
    Legible (spaced parts) :=
  legible_joined (by decide) (by decide) (legible_singleton rfl) each

theorem legible_listed {parts : List (List Token)} (each : ∀ part ∈ parts, Legible part) :
    Legible (listed parts) :=
  legible_joined (by decide) (by decide) (legible_cons_solo (by decide) (by decide) legible_nil)
    each

theorem legible_words {texts : List String}
    (spelled : ∀ text ∈ texts, (Token.word text).isSpelled) :
    Legible (words texts) := by
  refine legible_spaced fun part mem => ?_
  obtain ⟨text, inside, rfl⟩ := List.mem_map.mp mem
  exact legible_singleton (spelled text inside)

theorem legible_names (texts : List String) : Legible (names texts) := by
  refine legible_listed fun part mem => ?_
  obtain ⟨text, _, rfl⟩ := List.mem_map.mp mem
  exact legible_singleton rfl

theorem legible_table (text : String) : Legible (table text) := by
  unfold table
  induction splitDots text.toList with
  | nil => exact legible_nil
  | cons part rest ih =>
    cases rest with
    | nil => exact legible_singleton rfl
    | cons next rest =>
      simp only [List.map_cons] at ih ⊢
      rw [List.intercalate_cons_cons, List.append_assoc]
      have point : Legible [Token.symbol "."] := legible_singleton (by decide)
      have behind := legible_append point ih fun x mx y _ => by
        simp only [List.getLast?_singleton, Option.mem_def, Option.some.injEq] at mx
        subst mx
        unfold Apart
        cases y.kind <;> rfl
      refine legible_append (legible_singleton rfl) behind ?_
      simp +decide [Apart, kind]

/-! What the lexemes of a list are made of. -/

theorem lexemes_append (d : Dialect) (index : Nat) (before after : List Token) :
    lexemes d index (before ++ after) =
      lexemes d index before ++ lexemes d (index + (parameters before).length) after := by
  induction before generalizing index with
  | nil => simp [lexemes, parameters]
  | cons token rest ih =>
    cases h : token.parameter? <;>
      simp [lexemes, parameters, h, ih, Nat.add_assoc, Nat.add_comm 1]

theorem lexemes_filterMap {α : Type} {d : Dialect} {said : Lexeme String → Option α}
    {pick : Token → Option α}
    (each : ∀ index token, (token.lexeme d index).filterMap said = (pick token).toList)
    (index : Nat) (tokens : List Token) :
    (lexemes d index tokens).filterMap said = tokens.filterMap pick := by
  induction tokens generalizing index with
  | nil => rfl
  | cons token rest ih =>
    rw [lexemes, List.filterMap_append, each, ih, List.filterMap_cons]
    cases pick token <;> rfl

/-- A change of tokens and one of lexemes that agree on each token agree on the whole list, where
parameters stay parameters. -/
theorem lexemes_map {d : Dialect} {change : Token → Token} {reading : Lexeme String → Lexeme String}
    (each : ∀ index token, (change token).lexeme d index = (token.lexeme d index).map reading)
    (parameters : ∀ token, (change token).parameter? = token.parameter?)
    (index : Nat) (tokens : List Token) :
    lexemes d index (tokens.map change) = (lexemes d index tokens).map reading := by
  induction tokens generalizing index with
  | nil => rfl
  | cons token rest ih =>
    rw [List.map_cons, lexemes, lexemes, List.map_append, each, parameters, ih]

theorem word_mem_lexemes {d : Dialect} {index : Nat} {text : String} {tokens : List Token}
    (mem : Token.word text ∈ tokens) : Lexeme.word text ∈ lexemes d index tokens := by
  obtain ⟨before, after, rfl⟩ := List.append_of_mem mem
  rw [lexemes_append]
  simp [lexemes, lexeme]

end Token

end StoreBridge.Sql
