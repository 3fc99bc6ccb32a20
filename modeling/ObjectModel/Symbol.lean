/-
Interned names.

A symbol is the place of its text in a table of texts, in the order in which
they were first interned. The table keeps the texts in that order, and beside
them a map that leads from a text to its symbol; a text is looked up in the map,
and a symbol is read off the list. The table only grows, so a symbol keeps its
text. A symbol is a number of 32 bits, so there are not more of them.
-/
import ObjectModel.Bindings

namespace ObjectModel

/-- An interned name, by its place in the table. -/
structure Symbol where
  index : Nat
deriving DecidableEq, Inhabited

/-- The symbol of a place. Places come round again where 32 bits end. -/
def Symbol.ofPlace (place : Nat) : Symbol := ⟨place % 4294967296⟩

/-- The interned texts, oldest first, and the symbol of each. -/
structure SymbolTable where
  texts : List String
  mappings : Bindings Symbol
deriving Inhabited

namespace SymbolTable

def empty : SymbolTable := ⟨[], .empty⟩

/-- The symbol of a text, if it has been interned. -/
def lookup? (t : SymbolTable) (text : String) : Option Symbol := t.mappings.get? text

/-- The symbol of a text, interned now if it was not before. -/
def intern (t : SymbolTable) (text : String) : Symbol × SymbolTable :=
  match t.lookup? text with
  | some symbol => (symbol, t)
  | none =>
    let symbol := Symbol.ofPlace t.texts.length
    (symbol, ⟨t.texts ++ [text], t.mappings.set text symbol⟩)

/-- The text of a symbol, if the table knows it. -/
def name? (t : SymbolTable) (symbol : Symbol) : Option String :=
  t.texts[symbol.index]?

def size (t : SymbolTable) : Nat := t.texts.length

end SymbolTable

end ObjectModel
