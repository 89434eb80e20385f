import Entailment.Error
import Entailment.Text.Bytes

/-!
# Notations

A notation is a table of symbols, each with the sign that it stands for. The table is kept with
longer symbols (in bytes) before shorter ones, so that the first symbol that begins a text is the
longest one that does. Among symbols of one length the one registered last stands last.
-/

namespace Entailment

/-- A symbol and the sign that it stands for. -/
structure Entry where
  symbol : List Char
  sign : Sign
  symbol_ne : symbol ≠ []
deriving DecidableEq

/-- Whether `x` may stand before `y`: its symbol is another one and not shorter. -/
def Entry.Precedes (x y : Entry) : Prop :=
  x.symbol ≠ y.symbol ∧ utf8Length y.symbol ≤ utf8Length x.symbol

/-- A table of symbols, no symbol twice, longer symbols first. -/
structure Notation where
  entries : List Entry
  sorted : entries.Pairwise Entry.Precedes
deriving DecidableEq

namespace Entry

/-- Puts `e` behind the entries whose symbols are at least as long. -/
def place (e : Entry) : List Entry → List Entry
  | [] => [e]
  | x :: xs =>
    if utf8Length x.symbol < utf8Length e.symbol then e :: x :: xs else x :: e.place xs

theorem mem_place {e x : Entry} {xs : List Entry} : x ∈ e.place xs ↔ x = e ∨ x ∈ xs := by
  induction xs with
  | nil => simp [place]
  | cons y ys ih => by_cases h : utf8Length y.symbol < utf8Length e.symbol <;> grind [place]

theorem pairwise_place {e : Entry} {xs : List Entry} (h : xs.Pairwise Precedes)
    (he : ∀ x ∈ xs, x.symbol ≠ e.symbol) : (e.place xs).Pairwise Precedes := by
  induction xs with
  | nil => simp [place]
  | cons x xs ih =>
    obtain ⟨hx, hxs⟩ := List.pairwise_cons.1 h
    by_cases hlt : utf8Length x.symbol < utf8Length e.symbol
    · rw [place, if_pos hlt]
      refine List.pairwise_cons.2 ⟨fun y hy => ⟨(he y hy).symm, ?_⟩, h⟩
      rcases List.mem_cons.1 hy with rfl | hy
      · omega
      · have := (hx y hy).2
        omega
    · rw [place, if_neg hlt]
      refine List.pairwise_cons.2 ⟨fun y hy => ?_, ih hxs fun y hy => he y (by simp [hy])⟩
      rcases mem_place.1 hy with rfl | hy
      · exact ⟨he x List.mem_cons_self, by omega⟩
      · exact hx y hy

end Entry

namespace Notation

/-- No symbols. -/
def empty : Notation := ⟨[], .nil⟩

/-- Registers `symbol` for `sign`, in place of any earlier entry for it. The empty symbol is
ignored. -/
def insert (n : Notation) (symbol : String) (sign : Sign) : Notation :=
  if h : symbol.toList = [] then n
  else
    let e : Entry := ⟨symbol.toList, sign, h⟩
    ⟨e.place (n.entries.filter (·.symbol ≠ e.symbol)),
      Entry.pairwise_place (n.sorted.filter _) fun x hx => by simpa using (List.mem_filter.1 hx).2⟩

/-- Registers the symbols of a list, in its order. -/
def insertMany (n : Notation) (l : List (String × Sign)) : Notation :=
  l.foldl (fun n p => n.insert p.1 p.2) n

/-- The sign that `symbol` stands for. -/
def get? (n : Notation) (symbol : String) : Option Sign :=
  (n.entries.find? (·.symbol = symbol.toList)).map (·.sign)

/-- The entry of the longest symbol that begins `cs`. -/
def lookup (n : Notation) (cs : List Char) : Option Entry :=
  n.entries.find? (·.symbol.isPrefixOf cs)

/-- The words, ASCII symbols and logical symbols in common use. -/
def standard : Notation := empty.insertMany
  [("(", .lparen), (")", .rparen),
   ("and", .connective .and), ("or", .connective .or), ("not", .not),
   ("implies", .connective .implies), ("iff", .connective .iff),
   ("&", .connective .and), ("|", .connective .or), ("!", .not), ("~", .not),
   ("->", .connective .implies), ("<->", .connective .iff),
   ("∧", .connective .and), ("∨", .connective .or), ("￢", .not), ("¬", .not),
   ("→", .connective .implies), ("←→", .connective .iff), ("↔", .connective .iff)]

/-- The table in its order, symbols quoted. -/
def inspect (n : Notation) : String :=
  let entries := n.entries.map fun e => "(" ++ quote '"' e.symbol ++ ", " ++ e.sign.inspect ++ ")"
  "SymbolTable \x7b symbols: [" ++ ", ".intercalate entries ++ "] \x7d"

end Notation

end Entailment
