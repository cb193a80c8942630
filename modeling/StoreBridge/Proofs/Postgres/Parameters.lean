import StoreBridge.Proofs.Json.RoundTrip
import StoreBridge.Proofs.Postgres.Frames
import StoreBridge.Proofs.Text.Identifiers

/-!
Parameters that are sent, and read back as columns of their type. Where a type keeps all of a value
that is bound to it, the value comes back in the form of the type: a whole number as it was, other
values as text where the type is text, and a JSON value where the type is JSON.
-/
namespace StoreBridge

def Value.spelled : Value → Value
  | .bool b => .text (if b then "true" else "false")
  | .int i => .text (Digits.ofInt i.toInt)
  | .float x => .text (Layout.plain x)
  | .timestamp i => .text i.iso8601
  | .objectId id => .text id.text
  | v => v

namespace Postgres

namespace BaseType

def isJson (t : BaseType) : Bool := t == .json || t == .jsonb

def intWidth? : BaseType → Option Nat
  | .int2 => some 2
  | .int4 => some 4
  | .int8 => some 8
  | _ => none

/-- The types that keep all of a value. The others round numbers or cut times. -/
def isExact (t : BaseType) : Bool :=
  t.isJson || t.isText || t.intWidth?.isSome || [bool, bytea, uuid].contains t

theorem isExact_cases {t : BaseType} (exact : t.isExact) :
    t.isJson ∨ t.isText ∨ (∃ width, t.intWidth? = some width) ∨ t = .bool ∨ t = .bytea ∨
      t = .uuid := by
  cases t <;> simp_all [isExact, isJson, isText, intWidth?]

/-- The form in which a type holds a value. -/
def canonical : BaseType → Value → Value
  | .json, v | .jsonb, v => Value.ofJson v.toJson
  | .uuid, .text s => .text (Uuid.canonical s)
  | t, v => if t.isText then v.spelled else v

theorem canonical_json {t : BaseType} (json : t.isJson) (v : Value) :
    t.canonical v = Value.ofJson v.toJson := by
  cases t <;> first | rfl | contradiction

theorem canonical_text {t : BaseType} (text : t.isText) (v : Value) :
    t.canonical v = v.spelled := by
  cases t <;> first | rfl | contradiction

theorem canonical_int {t : BaseType} {width : Nat} (whole : t.intWidth? = some width)
    (v : Value) : t.canonical v = v := by
  cases t <;> first | rfl | contradiction

theorem canonical_null (t : BaseType) : t.canonical .null = .null := by
  cases t <;> rfl

/-- The values that an exact type has a form for, and null. -/
inductive Takes : BaseType → Value → Prop where
  | null {t : BaseType} : Takes t .null
  | bool {b : Bool} : Takes .bool (.bool b)
  | int {t : BaseType} {width : Nat} {i : Int64} (whole : t.intWidth? = some width)
    (low : -256 ^ width ≤ 2 * i.toInt) (high : 2 * i.toInt < 256 ^ width) : Takes t (.int i)
  | bytes {b : List UInt8} : Takes .bytea (.bytes b)
  | uuid {s : String} (form : (Uuid.ofText? s.toList).isSome) : Takes .uuid (.text s)
  | text {t : BaseType} {v : Value} (text : t.isText) (kind : v.kind ∉ [.binary, .array, .object]) :
    Takes t v
  | json {t : BaseType} {v : Value} (json : t.isJson)
    (kind : v.kind ∉ [.binary, .timestamp, .objectId]) : Takes t v

end BaseType

namespace PgType

def isExact : PgType → Bool
  | .base t => t.isExact
  | .array t => t.isExact

def canonical : PgType → Value → Value
  | .base t, v => t.canonical v
  | .array t, .array items => .array (items.map t.canonical)
  | .array _, v => v

def jsonParts : PgType → Value → List Value
  | .base t, v => if t.isJson then [v] else []
  | .array t, .array items => if t.isJson then items else []
  | .array _, _ => []

/-- The values that an exact type has a form for. In an array each item is, and each is short
    enough for its frame. -/
def Takes : PgType → Value → Prop
  | .base t, v => t.Takes v
  | .array _, .null => True
  | .array t, .array items => items.length ≤ greatestLength ∧ ∀ item ∈ items, t.Takes item ∧
      ∀ bytes, encodeBase t item = .ok (some bytes) → bytes.length ≤ greatestLength
  | .array _, _ => False

end PgType

variable {t : BaseType} {v : Value} {bytes : List UInt8}

theorem bind_ok {α β : Type} {x : Except EncodeError α} {f : α → Except EncodeError β} {b : β} :
    x >>= f = .ok b ↔ ∃ a, x = .ok a ∧ f a = .ok b := by
  cases x <;> simp [Bind.bind, Except.bind]

theorem map_ok {α β : Type} {x : Except EncodeError α} {f : α → β} {b : β} :
    x.map f = .ok b ↔ ∃ a, x = .ok a ∧ f a = b := by
  cases x <;> simp [Except.map]

/-! ### What is sent for which values -/

theorem encodeInt_ok {width : Nat} {i : Int} :
    encodeInt width i = .ok bytes ↔ bytes = Bytes.ofInt width i ∧ Bytes.toInt bytes = i := by
  unfold encodeInt
  split
  · rename_i same
    constructor
    · intro sent
      obtain rfl := Except.ok.inj sent
      exact ⟨rfl, same⟩
    · rintro ⟨rfl, _⟩
      rfl
  · rename_i other
    constructor
    · intro sent
      contradiction
    · rintro ⟨rfl, same⟩
      exact absurd same other

theorem encodeInt_isOk {width : Nat} {i : Int} :
    (∃ bytes, encodeInt width i = .ok bytes) ↔ -256 ^ width ≤ 2 * i ∧ 2 * i < 256 ^ width := by
  rw [← Bytes.toInt_ofInt]
  constructor
  · rintro ⟨bytes, sent⟩
    obtain ⟨rfl, same⟩ := encodeInt_ok.mp sent
    exact same
  · intro same
    exact ⟨_, encodeInt_ok.mpr ⟨rfl, same⟩⟩

inductive Sends : BaseType → Value → List UInt8 → Prop where
  | bool {b : Bool} : Sends .bool (.bool b) [if b then 1 else 0]
  | int {t : BaseType} {width : Nat} {i : Int64} {bytes : List UInt8}
    (whole : t.intWidth? = some width) (narrowed : encodeInt width i.toInt = .ok bytes) :
    Sends t (.int i) bytes
  | bytes {b : List UInt8} : Sends .bytea (.bytes b) b
  | uuid {s : String} {bytes : List UInt8} (read : Uuid.ofText? s.toList = some bytes) :
    Sends .uuid (.text s) bytes
  | text {t : BaseType} {v : Value} {s : String} (text : t.isText) (form : v.spelled = .text s) :
    Sends t v (Bytes.ofText s)
  | json {t : BaseType} {v : Value} (json : t.isJson)
    (kind : v.kind ∉ [.null, .binary, .timestamp, .objectId]) : Sends t v (encodeJson t v)

theorem encodeValue_of_sends (sends : Sends t v bytes) : encodeValue t v = .ok bytes := by
  cases sends with
  | bool | bytes => rfl
  | int whole narrowed =>
    cases t <;> simp only [BaseType.intWidth?, Option.some.injEq, reduceCtorEq] at whole <;>
      subst whole <;> exact narrowed
  | uuid read => exact congrArg (found id) read
  | text text form =>
    cases t <;> simp only [BaseType.isText, Bool.false_eq_true] at text <;>
      cases v <;> simp only [Value.spelled, Value.text.injEq, reduceCtorEq] at form <;>
      subst form <;> rfl
  | json json kind =>
    cases t <;> simp only [BaseType.isJson] at json <;> cases v <;>
      first | contradiction | exact absurd (List.mem_of_elem_eq_true rfl) kind | rfl

theorem sends_of_encodeValue (exact : t.isExact) (sent : encodeValue t v = .ok bytes) :
    Sends t v bytes := by
  rcases BaseType.isExact_cases exact with json | text | ⟨width, whole⟩ | rfl | rfl | rfl
  · obtain ⟨kind, rfl⟩ :
        v.kind ∉ [.null, .binary, .timestamp, .objectId] ∧ encodeJson t v = bytes := by
      cases t <;> simp [BaseType.isJson] at json <;>
        cases v <;> simp_all [encodeValue, BaseType.isText, Value.kind]
    exact .json json kind
  · obtain ⟨s, form, rfl⟩ : ∃ s, v.spelled = .text s ∧ Bytes.ofText s = bytes := by
      cases t <;> simp only [BaseType.isText, Bool.false_eq_true] at text <;>
        cases v <;> simp_all [encodeValue, BaseType.isText, Value.spelled]
    exact .text text form
  · obtain ⟨i, rfl, narrowed⟩ : ∃ i, v = .int i ∧ encodeInt width i.toInt = .ok bytes := by
      cases t <;> simp only [BaseType.intWidth?, Option.some.injEq, reduceCtorEq] at whole <;>
        subst whole <;> cases v <;> simp_all [encodeValue, BaseType.isText]
    exact .int whole narrowed
  · cases v with
    | bool b =>
      obtain rfl := Except.ok.inj sent
      exact .bool
    | _ => simp [encodeValue, BaseType.isText] at sent
  · cases v with
    | bytes b =>
      obtain rfl := Except.ok.inj sent
      exact .bytes
    | _ => simp [encodeValue, BaseType.isText] at sent
  · cases v with
    | text s =>
      obtain ⟨own, read, rfl⟩ : ∃ own, Uuid.ofText? s.toList = some own ∧ own = bytes := by
        cases read : Uuid.ofText? s.toList <;> simp_all [encodeValue, found]
      exact .uuid read
    | _ => simp [encodeValue, BaseType.isText] at sent

theorem encodeBase_ok {item : Option (List UInt8)} :
    encodeBase t v = .ok item ↔
      (v = .null ∧ item = none) ∨
        v ≠ .null ∧ ∃ bytes, encodeValue t v = .ok bytes ∧ item = some bytes := by
  cases v with
  | null => simp [encodeBase, eq_comm]
  | _ =>
    rw [encodeBase.eq_def]
    dsimp only
    rw [map_ok]
    simp [eq_comm]

theorem encodeItem_ok {item : Option (List UInt8)} :
    encodeItem t v = .ok item ↔
      encodeBase t v = .ok item ∧ (item.getD []).length ≤ greatestLength := by
  unfold encodeItem
  rw [bind_ok]
  constructor
  · rintro ⟨own, base, short⟩
    split at short
    · contradiction
    · rename_i few
      obtain rfl := Except.ok.inj short
      exact ⟨base, Nat.le_of_not_lt few⟩
  · rintro ⟨base, short⟩
    exact ⟨item, base, if_neg (Nat.not_lt.mpr short)⟩

theorem encode_base (t : BaseType) (v : Value) : encode (.base t) v = encodeBase t v := by
  cases v <;> rfl

theorem encode_array {item : Option (List UInt8)} :
    encode (.array t) v = .ok item ↔
      (v = .null ∧ item = none) ∨
        ∃ items coded, v = .array items ∧ items.length ≤ greatestLength ∧
          encodeItems t items = .ok coded ∧ item = some (frame t coded) := by
  cases v with
  | null => simp [encode, eq_comm]
  | array items =>
    rw [encode]
    split
    · rename_i many
      have few : ¬items.length ≤ greatestLength := by omega
      simp [few]
    · rename_i few
      rw [map_ok]
      simp [Nat.le_of_not_lt few, eq_comm]
  | _ => simp [encode]

theorem encode_none {t : PgType} : encode t v = .ok none ↔ v = .null := by
  cases t with
  | base t => simp [encode_base, encodeBase_ok]
  | array t => simp [encode_array]

/-! ### Which values are taken -/

theorem takes_of_sends (sends : Sends t v bytes) : t.Takes v := by
  cases sends with
  | bool => exact .bool
  | int whole narrowed =>
    obtain ⟨low, high⟩ := encodeInt_isOk.mp ⟨_, narrowed⟩
    exact .int whole low high
  | bytes => exact .bytes
  | uuid read => exact .uuid (Option.isSome_iff_exists.mpr ⟨_, read⟩)
  | text text form =>
    apply BaseType.Takes.text text
    intro mem
    cases v <;> simp [Value.kind, Value.spelled] at mem form
  | json json kind => exact .json json fun mem => kind (List.mem_cons_of_mem _ mem)

theorem sends_of_takes (takes : t.Takes v) (some : v ≠ .null) : ∃ bytes, Sends t v bytes := by
  cases takes with
  | null => contradiction
  | bool => exact ⟨_, .bool⟩
  | int whole low high =>
    obtain ⟨bytes, narrowed⟩ := encodeInt_isOk.mpr ⟨low, high⟩
    exact ⟨bytes, .int whole narrowed⟩
  | bytes => exact ⟨_, .bytes⟩
  | uuid form =>
    obtain ⟨bytes, read⟩ := Option.isSome_iff_exists.mp form
    exact ⟨bytes, .uuid read⟩
  | text text kind =>
    have spelled : ∃ s, v.spelled = .text s := by
      cases v <;> first | exact ⟨_, rfl⟩ | contradiction | simp [Value.kind] at kind
    obtain ⟨s, form⟩ := spelled
    exact ⟨_, .text text form⟩
  | json json kind =>
    refine ⟨_, .json json ?_⟩
    intro mem
    rcases List.mem_cons.mp mem with null | other
    · cases v <;> contradiction
    · exact kind other

theorem encodeBase_isOk (exact : t.isExact) :
    (∃ item, encodeBase t v = .ok item) ↔ t.Takes v := by
  constructor
  · rintro ⟨item, sent⟩
    rcases encodeBase_ok.mp sent with ⟨rfl, _⟩ | ⟨_, bytes, value, _⟩
    · exact .null
    · exact takes_of_sends (sends_of_encodeValue exact value)
  · intro takes
    by_cases null : v = .null
    · exact ⟨none, encodeBase_ok.mpr (.inl ⟨null, rfl⟩)⟩
    · obtain ⟨bytes, sends⟩ := sends_of_takes takes null
      have value := encodeValue_of_sends sends
      exact ⟨some bytes, encodeBase_ok.mpr (.inr ⟨null, bytes, value, rfl⟩)⟩

theorem encodeItem_isOk (exact : t.isExact) :
    (∃ item, encodeItem t v = .ok item) ↔ t.Takes v ∧
      ∀ bytes, encodeBase t v = .ok (some bytes) → bytes.length ≤ greatestLength := by
  simp only [encodeItem_ok, ← encodeBase_isOk exact]
  constructor
  · rintro ⟨item, base, short⟩
    refine ⟨⟨item, base⟩, fun bytes same => ?_⟩
    obtain rfl := Except.ok.inj (base.symm.trans same)
    exact short
  · rintro ⟨⟨item, base⟩, short⟩
    cases item with
    | none => exact ⟨none, base, Nat.zero_le _⟩
    | some bytes => exact ⟨some bytes, base, short bytes base⟩

theorem encodeItems_isOk (t : BaseType) (items : List Value) :
    (∃ coded, encodeItems t items = .ok coded) ↔
      ∀ item ∈ items, ∃ coded, encodeItem t item = .ok coded := by
  induction items with
  | nil => simp [encodeItems]
  | cons item rest ih =>
    rw [List.forall_mem_cons, ← ih]
    simp only [encodeItems, bind_ok]
    constructor
    · rintro ⟨coded, first, front, others, behind, _⟩
      exact ⟨⟨first, front⟩, others, behind⟩
    · rintro ⟨⟨first, front⟩, others, behind⟩
      exact ⟨first :: others, first, front, others, behind, rfl⟩

theorem encode_isOk {t : PgType} (exact : t.isExact) :
    (∃ sent, encode t v = .ok sent) ↔ t.Takes v := by
  cases t with
  | base t => simp only [encode_base, encodeBase_isOk exact, PgType.Takes]
  | array t =>
    cases v with
    | null => exact ⟨fun _ => trivial, fun _ => ⟨none, rfl⟩⟩
    | array items =>
      have each := encodeItems_isOk t items
      simp only [encodeItem_isOk exact] at each
      rw [PgType.Takes, ← each]
      simp [encode_array]
    | _ => simp [encode, PgType.Takes]

/-! ### What is read back -/

theorem decodeJson?_ofText (inverse : Json.ofText? v.jsonText = some v.toJson) :
    decodeJson? (Bytes.ofText v.jsonText) = some (Value.ofJson v.toJson) := by
  rw [decodeJson?, Bytes.toText?_ofText, Option.bind_eq_bind, Option.bind_some, inverse]
  rfl

theorem decodeBase?_encodeJson (json : t.isJson)
    (inverse : Json.ofText? v.jsonText = some v.toJson) :
    decodeBase? t (encodeJson t v) = some (Value.ofJson v.toJson) := by
  cases t with
  | json => exact decodeJson?_ofText inverse
  | jsonb => exact decodeJson?_ofText inverse
  | _ => contradiction

theorem decodeBase?_int {width : Nat} (whole : t.intWidth? = some width) :
    decodeBase? t bytes = decodeInt? width bytes := by
  cases t <;> simp only [BaseType.intWidth?, Option.some.injEq, reduceCtorEq] at whole <;>
    subst whole <;> rfl

theorem decodeBase?_text (text : t.isText) :
    decodeBase? t bytes = (Bytes.toText? bytes).map .text := by
  cases t <;> first | rfl | contradiction

theorem decodeInt?_encodeInt {width : Nat} {i : Int64}
    (sent : encodeInt width i.toInt = .ok bytes) : decodeInt? width bytes = some (.int i) := by
  obtain ⟨form, same⟩ := encodeInt_ok.mp sent
  have length : bytes.length = width := by
    rw [form]
    exact Places.length_ofNat _ _ width _
  rw [decodeInt?, Bytes.exactly?, if_pos length, same, Option.map_some, Int64.ofInt_toInt]

theorem decodeBase?_sends (inverse : t.isJson → Json.ofText? v.jsonText = some v.toJson)
    (sends : Sends t v bytes) : decodeBase? t bytes = some (t.canonical v) := by
  cases sends with
  | @bool b => cases b <;> rfl
  | int whole narrowed =>
    rw [decodeBase?_int whole, decodeInt?_encodeInt narrowed, BaseType.canonical_int whole]
  | bytes => rfl
  | uuid read =>
    obtain ⟨length, form⟩ := Uuid.text_ofText? read
    rw [decodeBase?, if_pos length, form]
    rfl
  | text text form =>
    rw [decodeBase?_text text, Bytes.toText?_ofText, BaseType.canonical_text text, form]
    rfl
  | json json kind =>
    rw [decodeBase?_encodeJson json (inverse json), BaseType.canonical_json json]

theorem decodeBase?_encodeValue (exact : t.isExact)
    (inverse : t.isJson → Json.ofText? v.jsonText = some v.toJson)
    (sent : encodeValue t v = .ok bytes) : decodeBase? t bytes = some (t.canonical v) :=
  decodeBase?_sends inverse (sends_of_encodeValue exact sent)

theorem encodeItem_reads (exact : t.isExact)
    (inverse : t.isJson → Json.ofText? v.jsonText = some v.toJson)
    {item : Option (List UInt8)} (sent : encodeItem t v = .ok item) :
    ReadsItem t item (t.canonical v) := by
  obtain ⟨base, short⟩ := encodeItem_ok.mp sent
  rcases encodeBase_ok.mp base with ⟨rfl, rfl⟩ | ⟨_, bytes, value, rfl⟩
  · exact t.canonical_null
  · exact ⟨short, decodeBase?_encodeValue exact inverse value⟩

theorem encodeItems_reads (exact : t.isExact) {items : List Value}
    (inverse : t.isJson → ∀ item ∈ items, Json.ofText? item.jsonText = some item.toJson)
    {coded : List (Option (List UInt8))} (sent : encodeItems t items = .ok coded) :
    List.Forall₂ (ReadsItem t) coded (items.map t.canonical) := by
  induction items generalizing coded with
  | nil =>
    obtain rfl := Except.ok.inj sent
    exact .nil
  | cons item rest ih =>
    obtain ⟨first, front, sent⟩ := bind_ok.mp sent
    obtain ⟨others, behind, sent⟩ := bind_ok.mp sent
    obtain rfl := Except.ok.inj sent
    have one := encodeItem_reads exact (fun json => inverse json item (by simp)) front
    have more := ih (fun json other mem => inverse json other (by simp [mem])) behind
    exact .cons one more

theorem isAccepted_of_isExact {t : PgType} (exact : t.isExact) : t.isAccepted := by
  cases t with
  | base t => cases t <;> first | rfl | contradiction
  | array t => cases t <;> first | rfl | contradiction

/-- A parameter of an exact type is taken just where the type has a form for it. Null is sent for
    null, and bytes are read back as the value in the form of the type. -/
theorem encodeChecked_faithful {t : PgType} (exact : t.isExact) {v : Value}
    (inverse : ∀ part ∈ t.jsonParts v, Json.ofText? part.jsonText = some part.toJson) :
    ((∃ sent, encodeChecked t v = .ok sent) ↔ t.Takes v) ∧
      (encodeChecked t v = .ok none ↔ v = .null) ∧
      ∀ bytes, encodeChecked t v = .ok (some bytes) → decode? t bytes = some (t.canonical v) := by
  rw [encodeChecked, if_pos (isAccepted_of_isExact exact)]
  refine ⟨encode_isOk exact, encode_none, ?_⟩
  intro bytes sent
  cases t with
  | base t =>
    rw [encode_base, encodeBase_ok] at sent
    rcases sent with ⟨_, other⟩ | ⟨_, own, value, same⟩
    · contradiction
    · obtain rfl := Option.some.inj same
      apply decodeBase?_encodeValue exact _ value
      intro json
      apply inverse
      simp [PgType.jsonParts, json]
  | array t =>
    rcases encode_array.mp sent with ⟨_, other⟩ | ⟨items, coded, rfl, few, written, same⟩
    · contradiction
    · obtain rfl := Option.some.inj same
      have reads : List.Forall₂ (ReadsItem t) coded (items.map t.canonical) := by
        apply encodeItems_reads exact _ written
        intro json
        simpa [PgType.jsonParts, json] using inverse
      have count : coded.length = items.length := by
        rw [reads.length_eq, List.length_map]
      exact decodeArray?_frame reads (by omega)

theorem encodeChecked_faithful_object :
    let v : Value := .object [("a", .array [.int 5, .null]), ("b", .text "é")]
    (PgType.base .jsonb).isExact ∧
      (∀ part ∈ (PgType.base .jsonb).jsonParts v, Json.ofText? part.jsonText = some part.toJson) ∧
      ∃ bytes, encodeChecked (.base .jsonb) v = .ok (some bytes) ∧
        decode? (.base .jsonb) bytes = some v := by
  intro v
  have readable : Json.Readable 127 v.toJson := by
    have items : Json.Readable 126 (.array [.integer 5, .null]) := by
      apply Json.Readable.array
      rw [List.forall_mem_cons, List.forall_mem_singleton]
      exact ⟨.integer (by decide) (by decide), .null⟩
    apply Json.Readable.object (by decide)
    change ∀ field ∈ [("a", .array [.integer 5, .null]), ("b", .string "é")],
      Json.Readable 126 field.2
    rw [List.forall_mem_cons, List.forall_mem_singleton]
    exact ⟨items, .string⟩
  have inverse : ∀ part ∈ (PgType.base .jsonb).jsonParts v,
      Json.ofText? part.jsonText = some part.toJson := by
    intro part mem
    obtain rfl : part = v := List.mem_singleton.mp mem
    exact Json.ofText?_text readable
  exact ⟨rfl, inverse, _, rfl, (encodeChecked_faithful rfl inverse).2.2 _ rfl⟩

end Postgres
end StoreBridge
