import ClassLang.Traversal.Visitor
/-!
Two visitors that show what a traversal does: one records the nodes that it meets, the other adds
up integer constants.
-/

namespace ClassLang

namespace Visitor

/--
Records every node, before its children or after them, and does not enter nodes of the given kinds.
-/
def trace (stop : NodeKind → Bool) (afterChildren : Bool) : Visitor (List Node) Nat :=
  fun node visits => do
    let enter := if stop node.kind then pure () else runAll visits
    let record : StateM (List Node) Unit := modify fun nodes => nodes ++ [node]
    if afterChildren then
      enter
      record
    else
      record
      enter
    return 1

def addAll {σ : Type} : List (StateM σ Int) → StateM σ Int
  | [] => pure 0
  | visit :: visits => do
      let first ← visit
      let rest ← addAll visits
      return first + rest

/--
Records every integer constant, and gives the sum of the constants that only operators stand above.
-/
def constantSum : Visitor (List Int) Int :=
  fun node visits =>
    match node with
    | .expr (.integer _ value) => do
        modify fun values => values ++ [value]
        return value
    | .expr (.binary ..) => addAll visits
    | .expr (.unary ..) => addAll visits
    | _ => walk visits

end Visitor

end ClassLang
