import Mathlib.Data.List.Basic
import StoreBridge.Postgres.Settings
import StoreBridge.Sql.Token

/-!
Texts in which one character is replaced after another. The second pass reads what the first has
put in, so two passes are as good as one only where the second finds nothing of its own there.
Connection strings and literals are escaped in one pass and mean two, the backslashes first.
-/
namespace StoreBridge
namespace Text

/-- A text with other characters in place of every `c`. -/
def replaced (c : Char) (other : List Char) (s : List Char) : List Char :=
  s.flatMap fun d => if d = c then other else [d]

theorem replaced_absent {c : Char} {s : List Char} (absent : c ∉ s) (other : List Char) :
    replaced c other s = s := by
  have same : ∀ d ∈ s, (if d = c then other else [d]) = [d] := by
    intro d mem
    rw [if_neg]
    rintro rfl
    exact absent mem
  rw [replaced, List.flatMap_congr same, List.flatMap_singleton']

theorem replaced_replaced {first second : Char} {other : List Char} (absent : second ∉ other)
    (later : List Char) (s : List Char) :
    replaced second later (replaced first other s) =
      s.flatMap fun c => if c = first then other else if c = second then later else [c] := by
  rw [replaced, replaced, List.flatMap_assoc]
  refine List.flatMap_congr fun c _ => ?_
  by_cases known : c = first
  · rw [if_pos known, if_pos known]
    exact replaced_absent absent later
  · rw [if_neg known, if_neg known, List.flatMap_singleton]

end Text

open Text

theorem Postgres.ConnectionParameter.escape_replaced (value : List Char) :
    value.flatMap escape = replaced '\'' ['\\', '\''] (replaced '\\' ['\\', '\\'] value) := by
  rw [replaced_replaced (by decide)]
  refine List.flatMap_congr fun c _ => ?_
  by_cases slash : c = '\\'
  · rw [escape, if_pos (.inl slash), if_pos slash, slash]
  · by_cases quote : c = '\''
    · rw [escape, if_pos (.inr quote), if_neg slash, if_pos quote, quote]
    · rw [escape, if_neg (not_or_intro slash quote), if_neg slash, if_neg quote]

-- The other way round, the backslash in front of a quote is escaped too, and the quote is not.
example : replaced '\\' ['\\', '\\'] (replaced '\'' ['\\', '\''] ['\'']) = ['\\', '\\', '\''] := by
  decide

theorem Sql.Token.literalBody_replaced (d : Dialect) (s : List Char) :
    literalBody d s =
      replaced '\'' ['\'', '\''] (if d = .mysql then replaced '\\' ['\\', '\\'] s else s) := by
  have body : literalBody d s = s.flatMap fun c => if escapes d c then [c, c] else [c] := by
    induction s with
    | nil => rfl
    | cons c rest ih => by_cases escaped : escapes d c <;> simp [literalBody, escaped, ih]
  rw [body]
  by_cases mysql : d = .mysql
  · subst mysql
    rw [if_pos rfl, replaced_replaced (by decide)]
    refine List.flatMap_congr fun c _ => ?_
    by_cases slash : c = '\\' <;> by_cases quote : c = '\'' <;> simp_all [escapes]
  · rw [if_neg mysql, replaced]
    refine List.flatMap_congr fun c _ => ?_
    by_cases quote : c = '\'' <;> cases d <;> simp_all [escapes]

end StoreBridge
