/-
Sqlate/Base/Connectives.lean

Texts with AND, OR and parentheses.

`ConnTree` are trees of connectives with any number of operands, `Layout.write`
writes them down with parentheses around every node of several operands, and
`Grammar.read` reads a text by precedence: AND binds tighter than OR.  Values
are taken in any bounded lattice (two-valued and three-valued truth are
instances), with AND as infimum and OR as supremum; the leaves are numbered
from left to right, and an assignment gives a value to each number.

`Grammar.read_write` is the round trip: the text of a tree is read as an
expression with the same leaves in the same order and with the same value
under every assignment.  `Layout.map_write` carries a written tree from one
alphabet to another, for example from characters to tokens.
-/
import Mathlib.Order.Lattice
import Mathlib.Order.BoundedOrder.Lattice

inductive Connective
  | and | or
  deriving DecidableEq, Repr

/-- A tree of connectives; a node applies its connective to all its children. -/
inductive ConnTree (α : Type*)
  | leaf (a : α)
  | node (op : Connective) (children : List (ConnTree α))

/-- An expression as it is read from a text. -/
inductive ConnExpr (α : Type*)
  | atom (a : α)
  | apply (op : Connective) (left right : ConnExpr α)
  deriving DecidableEq, Repr

variable {α β γ σ τ : Type*}

/-! ### Values -/

namespace Connective

def apply [Lattice β] : Connective → β → β → β
  | and, x, y => x ⊓ y
  | or, x, y => x ⊔ y

/-- The value of an empty list of operands. -/
def unit [Lattice β] [BoundedOrder β] : Connective → β
  | and => ⊤
  | or => ⊥

@[simp] theorem apply_unit [Lattice β] [BoundedOrder β] (op : Connective) (x : β) :
    op.apply x op.unit = x := by
  cases op <;> simp [apply, unit]

end Connective

namespace ConnTree

mutual

/-- The leaves from left to right. -/
def leaves : ConnTree α → List α
  | leaf a => [a]
  | node _ children => leavesOf children

def leavesOf : List (ConnTree α) → List α
  | [] => []
  | t :: ts => t.leaves ++ leavesOf ts

end

section
variable [Lattice β] [BoundedOrder β]

mutual

/-- The value, when the first leaf has number `k`: each node folds its own
connective over its children. -/
def value (v : Nat → β) (k : Nat) : ConnTree α → β
  | leaf _ => v k
  | node op children => valueOf op v k children

def valueOf (op : Connective) (v : Nat → β) (k : Nat) : List (ConnTree α) → β
  | [] => op.unit
  | t :: ts => op.apply (t.value v k) (valueOf op v (k + t.leaves.length) ts)

end

end

mutual

/-- Every node has a child. -/
def Full : ConnTree α → Prop
  | leaf _ => True
  | node _ children => children ≠ [] ∧ FullAll children

def FullAll : List (ConnTree α) → Prop
  | [] => True
  | t :: ts => t.Full ∧ FullAll ts

end

section
variable (keep : α → Bool)

mutual

/-- The tree without the leaves that are not kept, if there is anything left. -/
def prune : ConnTree α → Option (ConnTree α)
  | leaf a => if keep a then some (leaf a) else none
  | node op children =>
      match pruneAll children with
      | [] => none
      | t :: ts => some (node op (t :: ts))

def pruneAll : List (ConnTree α) → List (ConnTree α)
  | [] => []
  | t :: ts => t.prune.toList ++ pruneAll ts

end

mutual

theorem leaves_prune : (t : ConnTree α) →
    t.leaves.filter keep = (t.prune keep).elim [] leaves
  | leaf a => by
      cases h : keep a <;> simp [leaves, prune, h]
  | node op children => by
      have hall := leavesOf_pruneAll children
      rw [leaves, hall, prune]
      cases pruneAll keep children <;> rfl

theorem leavesOf_pruneAll : (ts : List (ConnTree α)) →
    (leavesOf ts).filter keep = leavesOf (pruneAll keep ts)
  | [] => rfl
  | t :: ts => by
      rw [leavesOf, List.filter_append, leaves_prune t, leavesOf_pruneAll ts, pruneAll]
      cases t.prune keep <;> rfl

end

mutual

/-- Nothing is pruned from a tree whose leaves are all kept. -/
theorem prune_eq_some : (t : ConnTree α) → t.Full → (∀ a ∈ t.leaves, keep a) →
    t.prune keep = some t
  | leaf a, _, hkeep => if_pos (hkeep a (List.mem_singleton_self a))
  | node op children, hfull, hkeep => by
      rw [prune, pruneAll_eq_self children hfull.2 hkeep]
      cases children with
      | nil => exact absurd rfl hfull.1
      | cons t ts => rfl

theorem pruneAll_eq_self : (ts : List (ConnTree α)) → FullAll ts →
    (∀ a ∈ leavesOf ts, keep a) → pruneAll keep ts = ts
  | [], _, _ => rfl
  | t :: ts, hfull, hkeep => by
      rw [pruneAll, prune_eq_some t hfull.1 fun a ha => hkeep a (List.mem_append_left _ ha),
        pruneAll_eq_self ts hfull.2 fun a ha => hkeep a (List.mem_append_right _ ha)]
      rfl

end

end

end ConnTree

namespace ConnExpr

/-- The atoms from left to right. -/
def atoms : ConnExpr α → List α
  | atom a => [a]
  | apply _ e f => e.atoms ++ f.atoms

/-- The value, when the first atom has number `k`. -/
def value [Lattice β] (v : Nat → β) (k : Nat) : ConnExpr α → β
  | atom _ => v k
  | apply op e f => op.apply (e.value v k) (f.value v (k + e.atoms.length))

end ConnExpr

/-! ### Writing -/

/-- How a tree is written over an alphabet. -/
structure Layout (σ α : Type*) where
  opening : List σ
  closing : List σ
  separator : Connective → List σ
  leaf : α → List σ

/-- Punctuation marks of one token each. -/
structure Punctuation (τ : Type*) where
  opening : τ
  closing : τ
  connective : Connective → τ

def Punctuation.layout (P : Punctuation τ) (leaf : α → List τ) : Layout τ α where
  opening := [P.opening]
  closing := [P.closing]
  separator op := [P.connective op]
  leaf := leaf

namespace Layout

mutual

/-- A node with one child is written like the child, any other node in
parentheses. -/
def write (L : Layout σ α) : ConnTree α → List σ
  | .leaf a => L.leaf a
  | .node op children =>
      match L.writeAll children with
      | [text] => text
      | texts => L.opening ++ (L.separator op).intercalate texts ++ L.closing

def writeAll (L : Layout σ α) : List (ConnTree α) → List (List σ)
  | [] => []
  | t :: ts => L.write t :: L.writeAll ts

end

theorem write_node_singleton (L : Layout σ α) (op : Connective) (t : ConnTree α) :
    L.write (.node op [t]) = L.write t := by
  simp [write, writeAll]

theorem write_node_cons_cons (L : Layout σ α) (op : Connective) (t u : ConnTree α)
    (ts : List (ConnTree α)) :
    L.write (.node op (t :: u :: ts))
      = L.opening ++ (L.separator op).intercalate (L.writeAll (t :: u :: ts)) ++ L.closing := by
  simp [write, writeAll]

theorem intercalate_writeAll_cons_cons (L : Layout σ α) (op : Connective) (t u : ConnTree α)
    (ts : List (ConnTree α)) :
    (L.separator op).intercalate (L.writeAll (t :: u :: ts))
      = L.write t ++ L.separator op ++ (L.separator op).intercalate (L.writeAll (u :: ts)) := by
  simp [writeAll, List.intercalate]

section
variable {L : Layout σ α} {L' : Layout τ α} {R : List σ → List τ → Prop} {h : List σ → List τ}

/-- `R` relates the punctuation of one layout to that of another. -/
structure Respects (R : List σ → List τ → Prop) (L : Layout σ α) (L' : Layout τ α) : Prop where
  parentheses : ∀ x y, R x y → R (L.opening ++ x ++ L.closing) (L'.opening ++ y ++ L'.closing)
  separator : ∀ op x y x' y', R x y → R x' y' →
    R (x ++ L.separator op ++ x') (y ++ L'.separator op ++ y')

mutual

/-- **A tree is written alike in both layouts**, when its leaves are. -/
theorem rel_write (H : Respects R L L') : (t : ConnTree α) → t.Full →
    (∀ a ∈ t.leaves, R (L.leaf a) (L'.leaf a)) → R (L.write t) (L'.write t)
  | .leaf a, _, hleaf => hleaf a (List.mem_singleton_self a)
  | .node op children, hfull, hleaf => by
      have hchildren := rel_writeAll H op children hfull.2 hleaf
      match children, hfull.1 with
      | [t], _ =>
          rw [write_node_singleton, write_node_singleton]
          simpa [writeAll] using hchildren
      | t :: u :: ts, _ =>
          rw [write_node_cons_cons, write_node_cons_cons]
          exact H.parentheses _ _ (hchildren (by simp))

theorem rel_writeAll (H : Respects R L L') (op : Connective) : (ts : List (ConnTree α)) →
    ConnTree.FullAll ts → (∀ a ∈ ConnTree.leavesOf ts, R (L.leaf a) (L'.leaf a)) → ts ≠ [] →
    R ((L.separator op).intercalate (L.writeAll ts))
      ((L'.separator op).intercalate (L'.writeAll ts))
  | [], _, _, hne => absurd rfl hne
  | [t], hfull, hleaf, _ => by
      have ht := rel_write H t hfull.1 fun a ha => hleaf a (List.mem_append_left _ ha)
      simpa [writeAll] using ht
  | t :: u :: ts, hfull, hleaf, _ => by
      have ht := rel_write H t hfull.1 fun a ha => hleaf a (List.mem_append_left _ ha)
      have hts := rel_writeAll H op (u :: ts) hfull.2
        (fun a ha => hleaf a (List.mem_append_right _ ha)) (List.cons_ne_nil u ts)
      rw [intercalate_writeAll_cons_cons, intercalate_writeAll_cons_cons]
      exact H.separator op _ _ _ _ ht hts

end

/-- `h` turns the punctuation of one layout into that of another. -/
structure Carries (h : List σ → List τ) (L : Layout σ α) (L' : Layout τ α) : Prop where
  parentheses : ∀ x, h (L.opening ++ x ++ L.closing) = L'.opening ++ h x ++ L'.closing
  separator : ∀ op x y, h (x ++ L.separator op ++ y) = h x ++ L'.separator op ++ h y

/-- **A written tree is carried over piece by piece**, when its leaves are. -/
theorem map_write (H : Carries h L L') (t : ConnTree α) (hfull : t.Full)
    (hleaf : ∀ a ∈ t.leaves, h (L.leaf a) = L'.leaf a) : h (L.write t) = L'.write t := by
  have hrel : Respects (fun x y => h x = y) L L' := by
    constructor
    · rintro x _ rfl
      exact H.parentheses x
    · rintro op x _ x' _ rfl rfl
      exact H.separator op x x'
  exact rel_write hrel t hfull hleaf

end

end Layout

/-! ### Reading -/

/-- The tokens of a grammar with AND, OR and parentheses.  `atom` reads a
comparison at the start of a list of tokens. -/
structure Grammar (τ γ : Type*) where
  isOpening : τ → Bool
  isClosing : τ → Bool
  isConnective : Connective → τ → Bool
  atom : List τ → Option (γ × List τ)

namespace Grammar

mutual

/-- An atom or an expression in parentheses. -/
def readPrimary (G : Grammar τ γ) : Nat → List τ → Option (ConnExpr γ × List τ)
  | 0, _ => none
  | n + 1, ts =>
      match G.atom ts with
      | some (a, rest) => some (.atom a, rest)
      -- what is no comparison must be in parentheses
      | none =>
          match ts with
          | [] => none
          | t :: ts =>
              if G.isOpening t then
                match G.readChain .or n ts with
                | some (e, t' :: rest) => if G.isClosing t' then some (e, rest) else none
                | _ => none
              else none

/-- Operands with a connective between them: the operands of AND are
primaries, those of OR are chains of AND. -/
def readChain (G : Grammar τ γ) (op : Connective) : Nat → List τ → Option (ConnExpr γ × List τ)
  | 0, _ => none
  | n + 1, ts =>
      match (match op with
        | .and => G.readPrimary n ts
        | .or => G.readChain .and n ts) with
      | some (e, t :: rest) =>
          if G.isConnective op t then
            match G.readChain op n rest with
            | some (f, rest) => some (.apply op e f, rest)
            | none => none
          -- the token belongs to whoever reads the chain
          else some (e, t :: rest)
      | r => r

end

/-- An operand of a connective. -/
def readOperand (G : Grammar τ γ) : Connective → Nat → List τ → Option (ConnExpr γ × List τ)
  | .and => G.readPrimary
  | .or => G.readChain .and

/-- Read a whole text. -/
def read (G : Grammar τ γ) (ts : List τ) : Option (ConnExpr γ) :=
  match G.readChain .or (3 * ts.length + 3) ts with
  | some (e, []) => some e
  | _ => none

/-! ### The round trip

A chain is followed by the end of the text, by a closing parenthesis or, for
a chain of AND, by an OR.  The fuel a text needs is three times its length
and a little more: one step for a primary and one for each chain around it. -/

/-- The grammar knows the punctuation, and no atom starts with a parenthesis. -/
structure Fits (G : Grammar τ γ) (P : Punctuation τ) : Prop where
  opening : G.isOpening P.opening = true
  closing : G.isClosing P.closing = true
  connective : ∀ op op', G.isConnective op (P.connective op') = decide (op = op')
  closing_not_connective : ∀ op, G.isConnective op P.closing = false
  atom_opening : ∀ rest, G.atom (P.opening :: rest) = none

/-- What may follow an operand. -/
def Follows (P : Punctuation τ) (rest : List τ) : Prop :=
  ∀ t ∈ rest.head?, t = P.closing ∨ ∃ op, t = P.connective op

/-- What may follow a chain of `op`. -/
def FollowsChain (P : Punctuation τ) (op : Connective) (rest : List τ) : Prop :=
  ∀ t ∈ rest.head?, t = P.closing ∨ op = .and ∧ t = P.connective .or

def AtomReads (G : Grammar τ γ) (P : Punctuation τ) (text : List τ) (a : γ) : Prop :=
  ∀ rest, Follows P rest → G.atom (text ++ rest) = some (a, rest)

def PrimaryReads (G : Grammar τ γ) (P : Punctuation τ) (text : List τ) (e : ConnExpr γ) : Prop :=
  ∀ n rest, 3 * text.length < n → Follows P rest → G.readPrimary n (text ++ rest) = some (e, rest)

/-- The fuel of a chain above that of its first primary. -/
def chainFuel : Connective → Nat
  | .and => 1
  | .or => 2

def ChainReads (G : Grammar τ γ) (P : Punctuation τ) (op : Connective) (text : List τ)
    (e : ConnExpr γ) : Prop :=
  ∀ n rest, 3 * text.length + chainFuel op < n → FollowsChain P op rest →
    G.readChain op n (text ++ rest) = some (e, rest)

/-- The operands of AND are primaries, those of OR are chains of AND. -/
def OperandReads (G : Grammar τ γ) (P : Punctuation τ) : Connective → List τ → ConnExpr γ → Prop
  | .and => PrimaryReads G P
  | .or => ChainReads G P .and

section
variable {G : Grammar τ γ} {P : Punctuation τ} {op : Connective} {text text' rest : List τ}
  {e f : ConnExpr γ}

theorem FollowsChain.follows (h : FollowsChain P op rest) : Follows P rest := by
  intro t ht
  obtain hclose | ⟨-, hor⟩ := h t ht
  · exact .inl hclose
  · exact .inr ⟨.or, hor⟩

theorem FollowsChain.and_of_or (h : FollowsChain P .or rest) : FollowsChain P .and rest := by
  intro t ht
  obtain hclose | ⟨hop, -⟩ := h t ht
  · exact .inl hclose
  · cases hop

/-- The chain ends where it should. -/
theorem FollowsChain.not_connective (hG : Fits G P) (h : FollowsChain P op rest) :
    ∀ t ∈ rest.head?, G.isConnective op t = false := by
  intro t ht
  obtain rfl | ⟨rfl, rfl⟩ := h t ht
  · exact hG.closing_not_connective op
  · simp [hG.connective]

theorem AtomReads.primary {a : γ} (h : AtomReads G P text a) : PrimaryReads G P text (.atom a) := by
  intro n rest hn hrest
  obtain ⟨n, rfl⟩ : ∃ m, n = m + 1 := ⟨n - 1, by omega⟩
  simp [readPrimary, h rest hrest]

theorem ChainReads.parentheses (hG : Fits G P) (h : ChainReads G P .or text e) :
    PrimaryReads G P ([P.opening] ++ text ++ [P.closing]) e := by
  intro n rest hn hrest
  simp only [List.length_append, List.length_singleton] at hn
  obtain ⟨n, rfl⟩ : ∃ m, n = m + 1 := ⟨n - 1, by omega⟩
  have hchain : G.readChain .or n (text ++ P.closing :: rest) = some (e, P.closing :: rest) := by
    apply h
    · simp only [chainFuel]
      omega
    · intro t ht
      exact .inl (Option.mem_some.mp ht).symm
  simp [readPrimary, hG.atom_opening, hG.opening, hG.closing, hchain]

/-- What the first operand of a chain is read as. -/
theorem OperandReads.first (h : OperandReads G P op text e) {n : Nat}
    (hn : 3 * text.length + chainFuel op ≤ n) (hrest : Follows P rest)
    (hor : op = .or → FollowsChain P .and rest) :
    G.readOperand op n (text ++ rest) = some (e, rest) := by
  cases op with
  | and => exact h n rest (by simp only [chainFuel] at hn; omega) hrest
  | or => exact h n rest (by simp only [chainFuel] at hn ⊢; omega) (hor rfl)

theorem readChain_succ_of_readOperand {n : Nat} {ts : List τ}
    (h : G.readOperand op n ts = some (e, rest)) (hrest : ∀ t ∈ rest.head?, G.isConnective op t = false) :
    G.readChain op (n + 1) ts = some (e, rest) := by
  cases op <;> cases rest <;> simp_all [readChain, readOperand]

theorem readChain_succ_of_readOperand_cons {n : Nat} {t : τ} {ts us : List τ}
    (h : G.readOperand op n ts = some (e, t :: us)) (ht : G.isConnective op t = true)
    (hus : G.readChain op n us = some (f, rest)) :
    G.readChain op (n + 1) ts = some (.apply op e f, rest) := by
  cases op <;> simp_all [readChain, readOperand]

theorem OperandReads.chain (hG : Fits G P) (h : OperandReads G P op text e) :
    ChainReads G P op text e := by
  intro n rest hn hrest
  obtain ⟨n, rfl⟩ : ∃ m, n = m + 1 := ⟨n - 1, by omega⟩
  apply readChain_succ_of_readOperand
  · apply h.first (by omega) hrest.follows
    rintro rfl
    exact hrest.and_of_or
  · exact hrest.not_connective hG

theorem OperandReads.chain_cons (hG : Fits G P) (h : OperandReads G P op text e)
    (h' : ChainReads G P op text' f) :
    ChainReads G P op (text ++ [P.connective op] ++ text') (.apply op e f) := by
  intro n rest hn hrest
  simp only [List.length_append, List.length_singleton] at hn
  obtain ⟨n, rfl⟩ : ∃ m, n = m + 1 := ⟨n - 1, by omega⟩
  have hfirst : G.readOperand op n (text ++ P.connective op :: (text' ++ rest))
      = some (e, P.connective op :: (text' ++ rest)) := by
    apply h.first (by omega)
    · intro t ht
      exact .inr ⟨op, (Option.mem_some.mp ht).symm⟩
    · rintro rfl t ht
      exact .inr ⟨rfl, (Option.mem_some.mp ht).symm⟩
  have hchain := h' n rest (by omega) hrest
  rw [List.append_assoc, List.append_assoc, List.singleton_append]
  apply readChain_succ_of_readOperand_cons hfirst (by simp [hG.connective]) hchain

end

section
variable {G : Grammar τ γ} {P : Punctuation τ} {leaf : α → List τ} {φ : α → γ}
variable [Lattice β] [BoundedOrder β]

/-- An expression has the leaves of a tree, in order, and its value. -/
structure Agrees (β : Type*) [Lattice β] [BoundedOrder β] (φ : α → γ) (t : ConnTree α)
    (e : ConnExpr γ) : Prop where
  atoms : e.atoms = t.leaves.map φ
  value : ∀ (v : Nat → β) k, e.value v k = t.value v k

/-- The same for the operands of a node. -/
structure AgreesOf (β : Type*) [Lattice β] [BoundedOrder β] (φ : α → γ) (op : Connective)
    (ts : List (ConnTree α)) (e : ConnExpr γ) : Prop where
  atoms : e.atoms = (ConnTree.leavesOf ts).map φ
  value : ∀ (v : Nat → β) k, e.value v k = ConnTree.valueOf op v k ts

theorem Agrees.singleton {t : ConnTree α} {e : ConnExpr γ} (h : Agrees β φ t e)
    (op : Connective) : AgreesOf β φ op [t] e where
  atoms := by simp [ConnTree.leavesOf, h.atoms]
  value v k := by simp [ConnTree.valueOf, h.value]

theorem Agrees.cons {t : ConnTree α} {ts : List (ConnTree α)} {e f : ConnExpr γ} {op : Connective}
    (h : Agrees β φ t e) (h' : AgreesOf β φ op ts f) :
    AgreesOf β φ op (t :: ts) (.apply op e f) where
  atoms := by simp [ConnExpr.atoms, ConnTree.leavesOf, h.atoms, h'.atoms]
  value v k := by simp [ConnExpr.value, ConnTree.valueOf, h.value, h'.value, h.atoms]

theorem AgreesOf.node {op : Connective} {ts : List (ConnTree α)} {e : ConnExpr γ}
    (h : AgreesOf β φ op ts e) : Agrees β φ (.node op ts) e where
  atoms := by rw [h.atoms, ConnTree.leaves]
  value v k := by rw [h.value, ConnTree.value]

/-- An operand of a node, read where its connective wants it. -/
theorem PrimaryReads.operand (hG : Fits G P) {text : List τ} {e : ConnExpr γ}
    (h : PrimaryReads G P text e) (op : Connective) : OperandReads G P op text e := by
  have hand : OperandReads G P .and text e := h
  cases op with
  | and => exact hand
  | or =>
      -- a chain of AND with one operand
      exact hand.chain hG

/-- A chain of any connective, read as the content of parentheses. -/
theorem ChainReads.content (hG : Fits G P) {op : Connective} {text : List τ} {e : ConnExpr γ}
    (h : ChainReads G P op text e) : ChainReads G P .or text e := by
  cases op with
  | and =>
      have hor : OperandReads G P .or text e := h
      exact hor.chain hG
  | or => exact h

mutual

/-- The induction is on the tree: a node of one child is read like the child,
any other node by a chain of its children between parentheses. -/
theorem primaryReads_write (hG : Fits G P) : (t : ConnTree α) → t.Full →
    (∀ a ∈ t.leaves, AtomReads G P (leaf a) (φ a)) →
    ∃ e, PrimaryReads G P ((P.layout leaf).write t) e ∧ Agrees β φ t e
  | .leaf a, _, hleaf =>
      ⟨.atom (φ a), (hleaf a (List.mem_singleton_self a)).primary,
        ⟨rfl, fun _ _ => rfl⟩⟩
  | .node op children, hfull, hleaf => by
      match children, hfull with
      | [t], hfull =>
          obtain ⟨e, hreads, hagrees⟩ := primaryReads_write hG t hfull.2.1 fun a ha =>
            hleaf a (List.mem_append_left _ ha)
          rw [Layout.write_node_singleton]
          exact ⟨e, hreads, (hagrees.singleton op).node⟩
      | t :: u :: ts, hfull =>
          obtain ⟨e, hreads, hagrees⟩ := chainReads_writeAll hG op (t :: u :: ts) hfull.2 hleaf
            hfull.1
          rw [Layout.write_node_cons_cons]
          exact ⟨e, (hreads.content hG).parentheses hG, hagrees.node⟩

theorem chainReads_writeAll (hG : Fits G P) (op : Connective) : (ts : List (ConnTree α)) →
    ConnTree.FullAll ts → (∀ a ∈ ConnTree.leavesOf ts, AtomReads G P (leaf a) (φ a)) → ts ≠ [] →
    ∃ e, ChainReads G P op ([P.connective op].intercalate ((P.layout leaf).writeAll ts)) e ∧
      AgreesOf β φ op ts e
  | [], _, _, hne => absurd rfl hne
  | [t], hfull, hleaf, _ => by
      obtain ⟨e, hreads, hagrees⟩ := primaryReads_write hG t hfull.1 fun a ha =>
        hleaf a (List.mem_append_left _ ha)
      refine ⟨e, ?_, hagrees.singleton op⟩
      rw [Layout.writeAll, Layout.writeAll, List.intercalate_singleton]
      exact (hreads.operand hG op).chain hG
  | t :: u :: ts, hfull, hleaf, _ => by
      obtain ⟨e, hreads, hagrees⟩ := primaryReads_write hG t hfull.1 fun a ha =>
        hleaf a (List.mem_append_left _ ha)
      obtain ⟨f, hreads', hagrees'⟩ := chainReads_writeAll hG op (u :: ts) hfull.2
        (fun a ha => hleaf a (List.mem_append_right _ ha)) (List.cons_ne_nil u ts)
      refine ⟨.apply op e f, ?_, hagrees.cons hagrees'⟩
      have hwrite := Layout.intercalate_writeAll_cons_cons (P.layout leaf) op t u ts
      simp only [Punctuation.layout] at hwrite
      rw [Punctuation.layout, hwrite]
      exact (hreads.operand hG op).chain_cons hG hreads'

end

/-- **Round trip**: the text of a tree is read as an expression with the
leaves of the tree in order, and with its value under every assignment. -/
theorem read_write (hG : Fits G P) (t : ConnTree α) (hfull : t.Full)
    (hleaf : ∀ a ∈ t.leaves, AtomReads G P (leaf a) (φ a)) :
    ∃ e, G.read ((P.layout leaf).write t) = some e ∧ Agrees β φ t e := by
  obtain ⟨e, hreads, hagrees⟩ := primaryReads_write (β := β) hG t hfull hleaf
  have hchain := ((hreads.operand hG .and).chain hG).content hG
  refine ⟨e, ?_, hagrees⟩
  -- the fuel of `read` is enough, and nothing follows
  have hread := hchain (3 * ((P.layout leaf).write t).length + 3) [] (Nat.lt_succ_self _)
    (by intro t ht; cases ht)
  rw [List.append_nil] at hread
  rw [read, hread]

end

/-! ### What is read -/

section
variable {G : Grammar τ γ} {R : List τ → List τ → ConnExpr γ → Prop}

/-- What holds of the texts that are read, of what is left of them and of the expression:
it does of an atom, and is kept by parentheses and by connectives. -/
structure Inductive (G : Grammar τ γ) (R : List τ → List τ → ConnExpr γ → Prop) : Prop where
  atom : ∀ {ts a rest}, G.atom ts = some (a, rest) → R ts rest (.atom a)
  parentheses : ∀ {t ts t' rest e}, G.isOpening t → R ts (t' :: rest) e → G.isClosing t' →
    R (t :: ts) rest e
  connective : ∀ {op ts t us rest e f}, R ts (t :: us) e → G.isConnective op t → R us rest f →
    R ts rest (.apply op e f)

theorem readChain_succ (op : Connective) (n : Nat) (ts : List τ) :
    G.readChain op (n + 1) ts =
      match G.readOperand op n ts with
      | some (e, t :: rest) =>
          if G.isConnective op t then
            match G.readChain op n rest with
            | some (f, rest) => some (.apply op e f, rest)
            | none => none
          else some (e, t :: rest)
      | r => r := by
  cases op <;> rw [readChain] <;> rfl

mutual

theorem Inductive.readPrimary (H : Inductive G R) : (n : Nat) → {ts rest : List τ} →
    {e : ConnExpr γ} → G.readPrimary n ts = some (e, rest) → R ts rest e
  | 0, _, _, _, h => by cases h
  | n + 1, ts, rest, e, h => by
      unfold Grammar.readPrimary at h
      cases hatom : G.atom ts with
      | some r =>
          rw [hatom] at h
          obtain ⟨rfl, rfl⟩ := Prod.mk.inj (Option.some.inj h)
          exact H.atom hatom
      | none =>
          rw [hatom] at h
          match ts with
          | [] => cases h
          | t :: ts =>
              by_cases hopening : G.isOpening t
              · simp only [hopening, if_true] at h
                match hchain : G.readChain .or n ts with
                | none => rw [hchain] at h; cases h
                | some (_, []) => rw [hchain] at h; cases h
                | some (e', t' :: rest') =>
                    simp only [hchain] at h
                    by_cases hclosing : G.isClosing t'
                    · rw [if_pos hclosing] at h
                      obtain ⟨rfl, rfl⟩ := Prod.mk.inj (Option.some.inj h)
                      exact H.parentheses hopening (Inductive.readChain H .or n hchain) hclosing
                    · rw [if_neg hclosing] at h
                      cases h
              · simp only [if_neg hopening] at h
                cases h

theorem Inductive.readChain (H : Inductive G R) (op : Connective) : (n : Nat) →
    {ts rest : List τ} → {e : ConnExpr γ} → G.readChain op n ts = some (e, rest) → R ts rest e
  | 0, _, _, _, h => by cases h
  | n + 1, ts, rest, e, h => by
      have hoperand : ∀ {e rest}, G.readOperand op n ts = some (e, rest) → R ts rest e := by
        intro e rest hread
        cases op with
        | and => exact Inductive.readPrimary H n hread
        | or => exact Inductive.readChain H .and n hread
      rw [readChain_succ] at h
      match hread : G.readOperand op n ts with
      | none => rw [hread] at h; cases h
      | some (e', []) =>
          rw [hread] at h
          obtain ⟨rfl, rfl⟩ := Prod.mk.inj (Option.some.inj h)
          exact hoperand hread
      | some (e', t :: rest') =>
          simp only [hread] at h
          by_cases hconnective : G.isConnective op t
          · rw [if_pos hconnective] at h
            match hchain : G.readChain op n rest' with
            | none => rw [hchain] at h; cases h
            | some (e'', rest'') =>
                rw [hchain] at h
                obtain ⟨rfl, rfl⟩ := Prod.mk.inj (Option.some.inj h)
                exact H.connective (hoperand hread) hconnective (Inductive.readChain H op n hchain)
          · rw [if_neg hconnective] at h
            obtain ⟨rfl, rfl⟩ := Prod.mk.inj (Option.some.inj h)
            exact hoperand hread

end

/-- **Induction over what is read.** -/
theorem Inductive.read (H : Inductive G R) {ts : List τ} {e : ConnExpr γ} (h : G.read ts = some e) :
    R ts [] e := by
  rw [Grammar.read] at h
  match hchain : G.readChain .or (3 * ts.length + 3) ts with
  | none => rw [hchain] at h; cases h
  | some (_, _ :: _) => rw [hchain] at h; cases h
  | some (e', []) =>
      rw [hchain] at h
      obtain rfl := Option.some.inj h
      exact Inductive.readChain H .or _ hchain

end

section
variable {G : Grammar τ γ} {f : τ → Option γ}

/-- The atoms are single tokens, and the punctuation is none of them. -/
structure Collects (G : Grammar τ γ) (f : τ → Option γ) : Prop where
  atom : ∀ {ts a rest}, G.atom ts = some (a, rest) → ts.filterMap f = a :: rest.filterMap f
  opening : ∀ {t}, G.isOpening t → f t = none
  closing : ∀ {t}, G.isClosing t → f t = none
  connective : ∀ {op t}, G.isConnective op t → f t = none

theorem Collects.inductive (H : Collects G f) :
    Inductive G fun ts rest e => ts.filterMap f = e.atoms ++ rest.filterMap f where
  atom h := H.atom h
  parentheses hopening h hclosing := by
    rw [List.filterMap_cons_none (H.opening hopening), h,
      List.filterMap_cons_none (H.closing hclosing)]
  connective h hconnective h' := by
    rw [h, List.filterMap_cons_none (H.connective hconnective), h', ConnExpr.atoms,
      List.append_assoc]

/-- **Nothing is read but what is there**: the atoms of the expression are those of
the text, in order. -/
theorem read_atoms (H : Collects G f) {ts : List τ} {e : ConnExpr γ} (h : G.read ts = some e) :
    ts.filterMap f = e.atoms := by
  rw [H.inductive.read h]
  exact List.append_nil _

end

end Grammar

/-! ### Leaves with values of their own -/

theorem ConnTree.leavesOf_append (ts us : List (ConnTree α)) :
    ConnTree.leavesOf (ts ++ us) = ConnTree.leavesOf ts ++ ConnTree.leavesOf us := by
  induction ts with
  | nil => rfl
  | cons t ts ih => rw [List.cons_append, ConnTree.leavesOf, ih, ConnTree.leavesOf, List.append_assoc]

/-- The value of a list of operands. -/
def Connective.fold [Lattice β] [BoundedOrder β] (op : Connective) (xs : List β) : β :=
  xs.foldr op.apply op.unit

/-- The value, when every atom has a value of its own. -/
def ConnExpr.eval [Lattice β] (f : α → β) : ConnExpr α → β
  | .atom a => f a
  | .apply op e e' => op.apply (e.eval f) (e'.eval f)

section
variable [Lattice β] [BoundedOrder β]

mutual

/-- The value, when every leaf has a value of its own. -/
def ConnTree.eval (f : α → β) : ConnTree α → β
  | .leaf a => f a
  | .node op children => ConnTree.evalOf op f children

def ConnTree.evalOf (op : Connective) (f : α → β) : List (ConnTree α) → β
  | [] => op.unit
  | t :: ts => op.apply (t.eval f) (ConnTree.evalOf op f ts)

end

theorem ConnTree.evalOf_eq_fold (op : Connective) (f : α → β) (ts : List (ConnTree α)) :
    ConnTree.evalOf op f ts = op.fold (ts.map (ConnTree.eval f)) := by
  induction ts with
  | nil => rfl
  | cons t ts ih =>
      rw [ConnTree.evalOf, ih]
      rfl

mutual

/-- Only the values of the leaves that are there matter. -/
theorem ConnTree.eval_congr {f g : α → β} : (t : ConnTree α) → (∀ a ∈ t.leaves, f a = g a) →
    t.eval f = t.eval g
  | .leaf a, h => h a (List.mem_singleton_self a)
  | .node op children, h => ConnTree.evalOf_congr op children h

theorem ConnTree.evalOf_congr {f g : α → β} (op : Connective) : (ts : List (ConnTree α)) →
    (∀ a ∈ ConnTree.leavesOf ts, f a = g a) → ConnTree.evalOf op f ts = ConnTree.evalOf op g ts
  | [], _ => rfl
  | t :: ts, h => by
      rw [ConnTree.evalOf, ConnTree.eval_congr t fun a ha => h a (List.mem_append_left _ ha),
        ConnTree.evalOf_congr op ts fun a ha => h a (List.mem_append_right _ ha), ConnTree.evalOf]

end

mutual

/-- The numbers of the leaves do not matter then. -/
theorem ConnTree.value_eq_eval {f : α → β} {v : Nat → β} : (t : ConnTree α) → (k : Nat) →
    (∀ i a, t.leaves[i]? = some a → v (k + i) = f a) → t.value v k = t.eval f
  | .leaf a, _, h => h 0 a rfl
  | .node op children, k, h => ConnTree.valueOf_eq_evalOf op children k h

theorem ConnTree.valueOf_eq_evalOf {f : α → β} {v : Nat → β} (op : Connective) :
    (ts : List (ConnTree α)) → (k : Nat) →
    (∀ i a, (ConnTree.leavesOf ts)[i]? = some a → v (k + i) = f a) →
    ConnTree.valueOf op v k ts = ConnTree.evalOf op f ts
  | [], _, _ => rfl
  | t :: ts, k, h => by
      have ht := ConnTree.value_eq_eval t k fun i a hi => by
        apply h i a
        rw [ConnTree.leavesOf, List.getElem?_append_left (List.getElem?_eq_some_iff.1 hi).1, hi]
      have hts := ConnTree.valueOf_eq_evalOf op ts (k + t.leaves.length) fun i a hi => by
        rw [Nat.add_assoc]
        apply h _ a
        rw [ConnTree.leavesOf, List.getElem?_append_right (Nat.le_add_right _ i),
          Nat.add_sub_cancel_left, hi]
      rw [ConnTree.valueOf, ht, hts, ConnTree.evalOf]

end

omit [BoundedOrder β] in
theorem ConnExpr.value_eq_eval {f : α → β} {v : Nat → β} (e : ConnExpr α) (k : Nat)
    (h : ∀ i a, e.atoms[i]? = some a → v (k + i) = f a) : e.value v k = e.eval f := by
  induction e generalizing k with
  | atom a => exact h 0 a rfl
  | apply op e e' ih ih' =>
      have hleft := ih k fun i a hi => by
        apply h i a
        rw [ConnExpr.atoms, List.getElem?_append_left (List.getElem?_eq_some_iff.1 hi).1, hi]
      have hright := ih' (k + e.atoms.length) fun i a hi => by
        rw [Nat.add_assoc]
        apply h _ a
        rw [ConnExpr.atoms, List.getElem?_append_right (Nat.le_add_right _ i),
          Nat.add_sub_cancel_left, hi]
      rw [ConnExpr.value, hleft, hright, ConnExpr.eval]

/-- **What is read has the value of the tree**, whatever the atoms stand for. -/
theorem Grammar.Agrees.eval {φ : α → γ} {t : ConnTree α} {e : ConnExpr γ}
    (h : Grammar.Agrees β φ t e) (g : γ → β) : e.eval g = t.eval fun a => g (φ a) := by
  have hatoms : ∀ i a, e.atoms[i]? = some a → (e.atoms[0 + i]?.elim ⊥ g) = g a := by
    intro i a hi
    rw [Nat.zero_add, hi]
    rfl
  have hleaves : ∀ i a, t.leaves[i]? = some a → (e.atoms[0 + i]?.elim ⊥ g) = g (φ a) := by
    intro i a hi
    rw [Nat.zero_add, h.atoms, List.getElem?_map, hi]
    rfl
  rw [← e.value_eq_eval (v := fun i => e.atoms[i]?.elim ⊥ g) 0 hatoms, h.value,
    ConnTree.value_eq_eval t 0 hleaves]

end
