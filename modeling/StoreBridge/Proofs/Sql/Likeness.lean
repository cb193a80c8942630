import StoreBridge.Proofs.Sql.Compilation

/-!
Tokens, clauses and groups that look alike through a mask, which hides something of each token.
What is put together alike of pieces that look alike looks alike; in a clause, the same branches
are left out on both sides.
-/
namespace StoreBridge.Sql
variable {mask : Token → Token}

namespace Token

/-- Lists of tokens between which a mask leaves no difference. -/
def Alike (mask : Token → Token) (left right : List Token) : Prop := left.map mask = right.map mask

theorem alike_append {a b c d : List Token} (front : Alike mask a b) (behind : Alike mask c d) :
    Alike mask (a ++ c) (b ++ d) := by
  rw [Alike, List.map_append, List.map_append, front, behind]

theorem alike_cons {token : Token} {a b : List Token} (behind : Alike mask a b) :
    Alike mask (token :: a) (token :: b) :=
  alike_append (a := [token]) rfl behind

theorem alike_isEmpty {a b : List Token} (alike : Alike mask a b) : a.isEmpty = b.isEmpty := by
  have length := congrArg List.length alike
  rw [List.length_map, List.length_map] at length
  cases a <;> cases b <;> simp_all

theorem alike_intercalate (between : List Token) {left right : List (List Token)}
    (each : List.Forall₂ (Alike mask) left right) :
    Alike mask (List.intercalate between left) (List.intercalate between right) := by
  induction each with
  | nil => rfl
  | cons first later ih =>
    cases later with
    | nil => simpa using first
    | cons _ _ =>
      rw [List.intercalate_cons_cons, List.intercalate_cons_cons]
      exact alike_append (alike_append first rfl) ih

theorem alike_spaced {left right : List (List Token)}
    (each : List.Forall₂ (Alike mask) left right) : Alike mask (spaced left) (spaced right) :=
  alike_intercalate _ each

theorem alike_listed {left right : List (List Token)}
    (each : List.Forall₂ (Alike mask) left right) : Alike mask (listed left) (listed right) :=
  alike_intercalate _ each

theorem alike_inParens {a b : List Token} (inner : Alike mask a b) :
    Alike mask (inParens a) (inParens b) :=
  alike_append (alike_cons inner) rfl

theorem alike_same (parts : List (List Token)) : List.Forall₂ (Alike mask) parts parts :=
  List.forall₂_same.mpr fun _ _ => rfl

theorem alike_map {Item : Type} {left right : Item → List Token} {items : List Item}
    (each : ∀ item, Alike mask (left item) (right item)) :
    List.Forall₂ (Alike mask) (items.map left) (items.map right) := by
  rw [List.forall₂_map_left_iff, List.forall₂_map_right_iff]
  exact List.forall₂_same.mpr fun item _ => each item

end Token

open Token (Alike)

/-- Predicates that look alike, of which both or neither are the one that always holds. -/
structure Predicate.Alike (mask : Token → Token) (p q : Predicate) : Prop where
  tokens : Token.Alike mask p.tokens q.tokens
  always : p = .always true ↔ q = .always true

namespace Clause

/-- Clauses that look alike, predicate by predicate. -/
abbrev Alike (mask : Token → Token) : Clause → Clause → Prop :=
  List.Forall₂ (Predicate.Alike mask)

variable {c other : Clause}

theorem clauseTokens_alike (alike : c.Alike mask other) :
    List.Forall₂ (Token.Alike mask) (Predicate.clauseTokens c) (Predicate.clauseTokens other) := by
  induction alike with
  | nil => exact .nil
  | cons first _ ih => exact .cons first.tokens ih

theorem conjoined_alike {left right : List (List Token)}
    (each : List.Forall₂ (Token.Alike mask) left right) :
    Token.Alike mask (Predicate.conjoined left) (Predicate.conjoined right) := by
  cases each with
  | nil => rfl
  | cons first later => exact Token.alike_intercalate _ (.cons first later)

theorem tokens_alike (alike : c.Alike mask other) : Token.Alike mask c.tokens other.tokens :=
  conjoined_alike (clauseTokens_alike alike)

theorem matchesAll_alike (alike : c.Alike mask other) : c.matchesAll = other.matchesAll := by
  cases alike with
  | nil => rfl
  | cons first later =>
    cases later with
    | nil => rw [Bool.eq_iff_iff, matchesAll_cons, matchesAll_cons, first.always]
    | cons _ _ => simp [matchesAll]

theorem whereTokens_alike (alike : c.Alike mask other) :
    Token.Alike mask c.whereTokens other.whereTokens := by
  unfold whereTokens
  rw [matchesAll_alike alike]
  split
  · rfl
  · exact Token.alike_append (a := [_, _, _]) rfl (tokens_alike alike)

theorem not_alike (alike : c.Alike mask other) :
    Predicate.Alike mask (.not c) (.not other) := by
  refine ⟨?_, by simp⟩
  rw [Predicate.tokens, Predicate.tokens]
  exact Token.alike_cons (Token.alike_cons (Token.alike_inParens (tokens_alike alike)))

theorem grouped_alike (joiner : Joiner) {branches others : List Clause}
    (each : List.Forall₂ (Alike mask) branches others) :
    Alike mask (grouped joiner branches) (grouped joiner others) := by
  have kept := List.rel_filter (p := fun branch => !matchesAll branch)
    (q := fun branch => !matchesAll branch)
    (fun _ _ alike => by simp only [matchesAll_alike alike]) each
  unfold grouped
  generalize branches.filter (fun branch => !matchesAll branch) = left at kept ⊢
  generalize others.filter (fun branch => !matchesAll branch) = right at kept ⊢
  have written : List.Forall₂ (Token.Alike mask) (Predicate.branchTokens left)
      (Predicate.branchTokens right) := by
    induction kept with
    | nil => exact .nil
    | cons first _ ih => exact .cons (Token.alike_inParens (tokens_alike first)) ih
  cases kept with
  | nil => exact .nil
  | cons _ _ =>
    refine .cons ⟨?_, by simp⟩ .nil
    rw [Predicate.tokens, Predicate.tokens]
    exact Token.alike_inParens (Token.alike_intercalate _ written)

end Clause
end StoreBridge.Sql
