import Abacus.Proofs.Symbol
import Abacus.Tree.Printer

/-!
# The written forms of a tree by recursion

The walks of a tree keep their pending work in a list. Here each is given by recursion on the tree
instead, and the two are proved equal. A list of pending work stands for the concatenation of what its
entries still have to write, which is the invariant of both loops.

Results:
* `Tree.postorder_eq_placesFrom`: the post-order walk visits the places below the left link, those
  below the right link, then the node.
* `Tree.infixTokens_eq_grouped`: the infix form is the left form, the token and the right form, between
  parentheses if the token is no numeral.
* `Tree.isTerm_iff`, `Tree.isExpression_iff`: the terms are the well-formed trees that can be constructed, and the
  expressions those whose tokens suit their kinds.
-/

namespace Abacus.Tree

/-! ## Post-order -/

/-- The places of a tree in post-order, by recursion; `path` leads from the tree up to the root. -/
def placesFrom (path : Path) : Tree → List Place
  | empty => []
  | node kind token left right =>
    placesFrom (.left :: path) left ++ placesFrom (.right :: path) right ++
      [⟨path, node kind token left right⟩]

/-- What a stack holds for a link: nothing if it is missing, else its place, not yet expanded. -/
def unvisited (path : Path) (t : Tree) : List Pending :=
  if t.isEmpty then [] else [⟨⟨path, t⟩, false⟩]

theorem expand_node (path : Path) (kind : Kind) (token : String) (left right : Tree)
    (rest : List Pending) :
    Pending.expand ⟨path, node kind token left right⟩ rest =
      unvisited (.left :: path) left ++ (unvisited (.right :: path) right ++
        ⟨⟨path, node kind token left right⟩, true⟩ :: rest) := by
  cases left <;> cases right <;> rfl

/-- A pending link adds its places to those visited so far. -/
theorem postorderFrom_unvisited (t : Tree) :
    ∀ (path : Path) (done : List Place) (rest : List Pending),
      postorderFrom done (unvisited path t ++ rest) =
        postorderFrom ((placesFrom path t).reverse ++ done) rest := by
  induction t with
  | empty => intro path done rest; rfl
  | node kind token left right ihl ihr =>
    intro path done rest
    have hhead : unvisited path (node kind token left right) ++ rest =
        ⟨⟨path, node kind token left right⟩, false⟩ :: rest := rfl
    rw [hhead, postorderFrom, expand_node, ihl, ihr, postorderFrom]
    simp [placesFrom]

theorem postorder_place (place : Place) : place.postorder = placesFrom place.path place.tree := by
  have hstart : place.start = unvisited place.path place.tree ++ [] := (List.append_nil _).symm
  rw [Place.postorder, hstart, postorderFrom_unvisited, postorderFrom, List.append_nil, List.reverse_reverse]

theorem postorder_eq_placesFrom (t : Tree) : t.postorder = placesFrom [] t :=
  postorder_place (.root t)

theorem map_tree_placesFrom (t : Tree) (path path' : Path) :
    (placesFrom path t).map (·.tree) = (placesFrom path' t).map (·.tree) := by
  induction t generalizing path path' with
  | empty => rfl
  | node kind token left right ihl ihr =>
    simp only [placesFrom, List.map_append]
    rw [ihl (.left :: path) (.left :: path'), ihr (.right :: path) (.right :: path')]
    rfl

theorem map_tree_postorder_empty : empty.postorder.map (·.tree) = [] := by
  simp [postorder_eq_placesFrom, placesFrom]

/-- The nodes of a tree in post-order: those below its links, then the root. -/
theorem map_tree_postorder_node (kind : Kind) (token : String) (left right : Tree) :
    (node kind token left right).postorder.map (·.tree) =
      left.postorder.map (·.tree) ++ right.postorder.map (·.tree) ++ [node kind token left right] := by
  simp only [postorder_eq_placesFrom, placesFrom, List.map_append]
  rw [map_tree_placesFrom left [.left] [], map_tree_placesFrom right [.right] []]
  rfl

theorem forall_mem_postorder_node {kind : Kind} {token : String} {left right : Tree} {p : Tree → Prop} :
    (∀ m ∈ (node kind token left right).postorder.map (·.tree), p m) ↔
      (∀ m ∈ left.postorder.map (·.tree), p m) ∧ (∀ m ∈ right.postorder.map (·.tree), p m) ∧
        p (node kind token left right) := by
  rw [map_tree_postorder_node, List.forall_mem_append, List.forall_mem_append, List.forall_mem_singleton, and_assoc]

theorem postfixTokens_eq_map (t : Tree) : t.postfixTokens = (t.postorder.map (·.tree)).map (·.token) := by
  rw [postfixTokens, List.map_map]
  rfl

@[simp] theorem postfixTokens_empty : empty.postfixTokens = [] := by
  rw [postfixTokens_eq_map, map_tree_postorder_empty]
  rfl

@[simp] theorem postfixTokens_node (kind : Kind) (token : String) (left right : Tree) :
    (node kind token left right).postfixTokens =
      left.postfixTokens ++ right.postfixTokens ++ [token] := by
  simp only [postfixTokens_eq_map, map_tree_postorder_node, List.map_append]
  rfl

/-! ## Infix form -/

/-- The infix form by recursion: left form, token, right form, between parentheses unless the token is a
numeral. -/
def grouped : Tree → List String
  | empty => []
  | node _ token left right =>
    let inner := left.grouped ++ token :: right.grouped
    if Token.isNumeral token then inner else Token.opening :: inner ++ [Token.closing]

/-- The tokens that an item of the infix printer still has to write. -/
def Item.tokens : Item → List String
  | emit token => [token]
  | expand t => t.grouped

theorem flatMap_tokens_present (t : Tree) :
    (t.present.map Item.expand).flatMap Item.tokens = t.grouped := by
  cases t <;> simp [present, isEmpty, Item.tokens, grouped]

theorem flatMap_tokens_ofTree (t : Tree) : (Item.ofTree t).flatMap Item.tokens = t.grouped := by
  cases t with
  | empty => rfl
  | node kind token left right =>
    have hleft := flatMap_tokens_present left
    have hright := flatMap_tokens_present right
    simp only [Item.ofTree, isOperator, Tree.token, grouped]
    by_cases h : Token.isNumeral token = true <;>
      simp [h, List.flatMap_append, List.flatMap_cons, Item.tokens, hleft, hright]

theorem infixFrom_eq (done : List String) (items : List Item) :
    infixFrom done items = done.reverse ++ items.flatMap Item.tokens := by
  fun_induction infixFrom done items with
  | case1 done => simp
  | case2 done token rest ih => simp [ih, Item.tokens]
  | case3 done t rest ih =>
    rw [ih, List.flatMap_append, flatMap_tokens_ofTree, List.flatMap_cons]
    rfl

theorem infixTokens_eq_grouped (t : Tree) : t.infixTokens = t.grouped := by
  rw [infixTokens, infixFrom_eq, flatMap_tokens_present]
  simp

/-! ## Terms and expressions -/

/-- The trees in which every operator has all its operands. A leaf may be any text that is no operator symbol. -/
inductive IsTerm : Tree → Prop
  | operand {literal : String} (h : Token.isOperator literal = false) : IsTerm (operand literal)
  | unary {op : Operator} {t : Tree} (h : op.arity = 1) (ht : IsTerm t) : IsTerm (unary op.symbol t)
  | binary {op : Operator} {left right : Tree} (h : op.arity = 2) (hleft : IsTerm left)
    (hright : IsTerm right) : IsTerm (binary op.symbol left right)

/-- The trees of expressions: a leaf is a numeral, and an operator has all its operands. -/
inductive IsExpression : Tree → Prop
  | operand {literal : String} (h : Token.isNumeral literal = true) :
    IsExpression (operand literal)
  | unary {op : Operator} {t : Tree} (h : op.arity = 1) (ht : IsExpression t) :
    IsExpression (unary op.symbol t)
  | binary {op : Operator} {left right : Tree} (h : op.arity = 2) (hleft : IsExpression left)
    (hright : IsExpression right) : IsExpression (binary op.symbol left right)

/-- Does the token of a node suit its kind: a numeral an operand, the symbol of a unary operator a unary
node, that of a binary operator a binary node? -/
def tokenSuits : Kind → String → Bool
  | .operand => Token.isNumeral
  | .unary => Token.isUnary
  | .binary => Token.isBinary

/-- The token of every node suits its kind. -/
def Suited : Tree → Prop
  | empty => True
  | node kind token left right => tokenSuits kind token = true ∧ left.Suited ∧ right.Suited

/-- The token of every operator node is one that its constructor accepts. -/
def Constructed : Tree → Prop
  | empty => True
  | node kind token left right =>
    (kind = .binary → Token.isBinary token = true) ∧ (kind = .unary → Token.isUnary token = true) ∧
      left.Constructed ∧ right.Constructed

theorem isEmpty_eq_true_iff {t : Tree} : t.isEmpty = true ↔ t = empty := by
  cases t <;> simp [isEmpty]

theorem isEmpty_eq_false_iff {t : Tree} : t.isEmpty = false ↔ t ≠ empty := by
  cases t <;> simp [isEmpty]

theorem hasArity_operand_iff {token : String} {left right : Tree} :
    hasArity .operand token left right = true ↔
      left = empty ∧ right = empty ∧ Token.isOperator token = false := by
  simp [hasArity, isEmpty_eq_true_iff, and_assoc]

theorem hasArity_unary_iff {op : Operator} (hop : op.arity = 1) {left right : Tree} :
    hasArity .unary op.symbol left right = true ↔ left = empty ∧ right ≠ empty := by
  simp [hasArity, hop, isEmpty_eq_true_iff, isEmpty_eq_false_iff]

theorem hasArity_binary_iff {op : Operator} (hop : op.arity = 2) {left right : Tree} :
    hasArity .binary op.symbol left right = true ↔ left ≠ empty ∧ right ≠ empty := by
  simp [hasArity, hop, isEmpty_eq_false_iff]

namespace IsTerm

theorem ne_empty {t : Tree} (h : t.IsTerm) : t ≠ empty := by
  cases h <;> exact Tree.noConfusion

theorem wellFormed {t : Tree} (h : t.IsTerm) : t.WellFormed := by
  induction h with
  | operand h => exact ⟨hasArity_operand_iff.mpr ⟨rfl, rfl, h⟩, trivial, trivial⟩
  | unary h ht ih => exact ⟨(hasArity_unary_iff h).mpr ⟨rfl, ht.ne_empty⟩, trivial, ih⟩
  | binary h hleft hright ihl ihr =>
    exact ⟨(hasArity_binary_iff h).mpr ⟨hleft.ne_empty, hright.ne_empty⟩, ihl, ihr⟩

theorem constructed {t : Tree} (h : t.IsTerm) : t.Constructed := by
  induction h with
  | operand _ => exact ⟨Kind.noConfusion, Kind.noConfusion, trivial, trivial⟩
  | unary h _ ih => exact ⟨Kind.noConfusion, fun _ => by simp [h], trivial, ih⟩
  | binary h _ _ ihl ihr => exact ⟨fun _ => by simp [h], Kind.noConfusion, ihl, ihr⟩

/-- A term is an expression if its tokens suit their nodes. -/
theorem isExpression {t : Tree} (h : t.IsTerm) (hsuited : t.Suited) : t.IsExpression := by
  induction h with
  | operand _ => exact .operand hsuited.1
  | unary h _ ih => exact .unary h (ih hsuited.2.2)
  | binary h _ _ ihl ihr => exact .binary h (ihl hsuited.2.1) (ihr hsuited.2.2)

end IsTerm

/-- A tree is a term iff it has a node, every node has the links that its token asks for, and the constructors accept
the tokens of the operator nodes. -/
theorem isTerm_iff {t : Tree} : t.IsTerm ↔ t ≠ empty ∧ t.WellFormed ∧ t.Constructed := by
  constructor
  · intro h
    exact ⟨h.ne_empty, h.wellFormed, h.constructed⟩
  · rintro ⟨hne, hwf, hconstructed⟩
    induction t with
    | empty => exact absurd rfl hne
    | node kind token left right ihl ihr =>
      obtain ⟨harity, hwfl, hwfr⟩ := hwf
      obtain ⟨hbinary, hunary, hcl, hcr⟩ := hconstructed
      cases kind with
      | operand =>
        obtain ⟨rfl, rfl, htoken⟩ := hasArity_operand_iff.mp harity
        exact .operand htoken
      | unary =>
        obtain ⟨op, rfl, hone⟩ := Token.isUnary_iff.mp (hunary rfl)
        obtain ⟨rfl, hright⟩ := (hasArity_unary_iff hone).mp harity
        exact .unary hone (ihr hright hwfr hcr)
      | binary =>
        obtain ⟨op, rfl, htwo⟩ := Token.isBinary_iff.mp (hbinary rfl)
        obtain ⟨hleft, hright⟩ := (hasArity_binary_iff htwo).mp harity
        exact .binary htwo (ihl hleft hwfl hcl) (ihr hright hwfr hcr)

theorem IsExpression.isTerm {t : Tree} (h : t.IsExpression) : t.IsTerm := by
  induction h with
  | operand h => exact .operand (Token.isOperator_eq_false_of_isNumeral h)
  | unary h _ ih => exact .unary h ih
  | binary h _ _ ihl ihr => exact .binary h ihl ihr

theorem IsExpression.ne_empty {t : Tree} (h : t.IsExpression) : t ≠ empty :=
  h.isTerm.ne_empty

theorem IsExpression.wellFormed {t : Tree} (h : t.IsExpression) : t.WellFormed :=
  h.isTerm.wellFormed

theorem IsExpression.suited {t : Tree} (h : t.IsExpression) : t.Suited := by
  induction h with
  | operand h => exact ⟨h, trivial, trivial⟩
  | unary h _ ih => exact ⟨by simp [tokenSuits, h], trivial, ih⟩
  | binary h _ _ ihl ihr => exact ⟨by simp [tokenSuits, h], ihl, ihr⟩

theorem Suited.constructed {t : Tree} (h : t.Suited) : t.Constructed := by
  induction t with
  | empty => trivial
  | node kind token left right ihl ihr =>
    obtain ⟨htoken, hleft, hright⟩ := h
    refine ⟨?_, ?_, ihl hleft, ihr hright⟩
    · rintro rfl
      exact htoken
    · rintro rfl
      exact htoken

/-- A tree is an expression iff it has a node, every node has the links that its token asks for, and
every token suits its node. -/
theorem isExpression_iff {t : Tree} : t.IsExpression ↔ t ≠ empty ∧ t.WellFormed ∧ t.Suited := by
  constructor
  · intro h
    exact ⟨h.ne_empty, h.wellFormed, h.suited⟩
  · rintro ⟨hne, hwf, hsuited⟩
    exact (isTerm_iff.mpr ⟨hne, hwf, hsuited.constructed⟩).isExpression hsuited

end Abacus.Tree
