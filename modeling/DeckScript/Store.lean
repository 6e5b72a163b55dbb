import DeckScript.Table

/-!
# Variables

The variables of a script share one flat name space. Their values are texts: numbers as they are
written, and literals with their delimiters.

## Main definitions

* `Store` — the variables and their values
* `Store.resolve` — a token's value if it names a variable, else the token itself
-/

namespace DeckScript

/-- The assigned variables with their values. -/
abbrev Store := Table String

namespace Store

/-- The value of a token that names a variable; any other token stands for itself. -/
def resolve (store : Store) (token : String) : String := (store.get? token).getD token

theorem resolve_of_get? {store : Store} {token value : String}
    (h : store.get? token = some value) : store.resolve token = value := by simp [resolve, h]

theorem resolve_of_get?_eq_none {store : Store} {token : String} (h : store.get? token = none) :
    store.resolve token = token := by simp [resolve, h]

end Store

end DeckScript
