import Mathlib
import Tide.Grammar.Cursor

/-!
# Steps of the cursor

What the smallest readers do at a cursor whose next tokens are known.
-/

namespace Tide

/-! ## The end of the tokens -/

theorem Token.kind_ne_finish_of_isSymbol {token : Token} {sign : Symbol}
    (hsign : token.isSymbol sign = true) : token.kind ≠ .finish := by
  intro hkind
  simp [isSymbol, hkind] at hsign

theorem Token.kind_ne_finish_of_isKeyword {token : Token} {word : Keyword}
    (hword : token.isKeyword word = true) : token.kind ≠ .finish := by
  intro hkind
  simp [isKeyword, hkind] at hword

namespace Cursor

theorem finish_ofTokens (tokens : List Token) : (ofTokens tokens).finish.kind = .finish := by
  rw [ofTokens]
  cases hfinish : tokens.find? (·.kind == .finish) with
  | none => rfl
  | some finish => simpa using List.find?_some hfinish

/-- Only at the end is the token ahead a finishing one. -/
theorem tokens_ne_nil {cursor : Cursor} (hfinish : cursor.finish.kind = .finish)
    (hhead : cursor.head.kind ≠ .finish) : cursor.tokens ≠ [] := by
  rintro hnil
  apply hhead
  rw [head, hnil]
  exact hfinish

end Cursor

end Tide

namespace Tide.Parser

variable {α β : Type}

/-! ## One reader after another -/

theorem bind_of_ok {first : Parser α} {next : α → Parser β} {cursor after : Cursor} {value : α}
    (hfirst : first cursor = .ok value after) : (first >>= next) cursor = next value after := by
  simp only [bind, EStateM.bind, hfirst]

theorem exists_of_bind_eq_ok {first : Parser α} {next : α → Parser β} {cursor after : Cursor}
    {result : β} (hbind : (first >>= next) cursor = .ok result after) :
    ∃ value between, first cursor = .ok value between ∧ next value between = .ok result after := by
  simp only [bind, EStateM.bind] at hbind
  split at hbind
  case h_1 value between hfirst => exact ⟨value, between, hfirst, hbind⟩
  case h_2 => cases hbind

theorem peek_apply (cursor : Cursor) : peek cursor = .ok cursor.head cursor := rfl

/-! ## Single tokens -/

section

variable {token finish : Token} {rest : List Token} {notes : List Note} {sign : Symbol}

theorem next_apply (cursor : Cursor) :
    next cursor = .ok cursor.head { cursor with tokens := cursor.tokens.tail } := by
  obtain ⟨_ | ⟨token, rest⟩, finish, notes⟩ := cursor <;> rfl

theorem expectSymbol_cons (hsign : token.isSymbol sign = true) :
    expectSymbol sign ⟨token :: rest, finish, notes⟩ = .ok token ⟨rest, finish, notes⟩ := by
  rw [expectSymbol, bind_of_ok (peek_apply _)]
  exact congrFun (if_pos hsign) _

theorem tryPunctuation_cons (hsign : token.isSymbol sign = true) :
    tryPunctuation sign ⟨token :: rest, finish, notes⟩ = .ok true ⟨rest, finish, notes⟩ := by
  rw [tryPunctuation, bind_of_ok (peek_apply _)]
  exact congrFun (if_pos hsign) _

theorem tryPunctuation_of_not {cursor : Cursor} (hsign : cursor.head.isSymbol sign = false) :
    tryPunctuation sign cursor = .ok false cursor := by
  rw [tryPunctuation, bind_of_ok (peek_apply _)]
  exact congrFun (if_neg (by simp [hsign])) _

theorem identifier_cons {what : Expectation} (hidentifier : token.isIdentifier = true) :
    identifier what ⟨token :: rest, finish, notes⟩ = .ok token.text ⟨rest, finish, notes⟩ := by
  rw [identifier, bind_of_ok (peek_apply _)]
  exact congrFun (if_pos hidentifier) _

theorem next_of_expectSymbol {cursor after : Cursor}
    (hexpect : expectSymbol sign cursor = .ok token after) :
    cursor.head.isSymbol sign = true ∧ next cursor = .ok token after := by
  rw [expectSymbol, bind_of_ok (peek_apply _)] at hexpect
  split at hexpect
  case isTrue hsign => exact ⟨hsign, hexpect⟩
  case isFalse => cases hexpect

end

end Tide.Parser
