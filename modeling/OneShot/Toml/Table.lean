import OneShot.Toml.Document

/-! # Building tables

A table is built from lines `key = value`, a document from headers as well. A name may be given a
value only once. A table may be opened by a header only once, and after that not be extended by
dotted keys from outside; what is written between braces or brackets is complete.

* `Entries.addLine?`   one line of a table
* `Draft.open?`, `Draft.close?`   the start and the end of the lines below a header
-/

namespace OneShot.Toml

/-- Where a header places the lines below it. -/
structure Header where
  path : List Key
  /-- Whether it stands in double brackets and adds a table to a list. -/
  double : Bool
  span : Span

/-- Changes the item at a path, where `f` gets the item that is there and returns the new one. On
the way, missing tables are made with the given origin and stand where their part of the path does,
and of a list of tables the last one is taken. Dotted keys go only through tables that have no
header and no braces of their own. -/
def Entries.alter? (made : Origin) (f : Option Item → Option Item) :
    List Key → Entries → Option Entries
  | [], _ => none
  | [k], es => (f (es.get? k.name)).map fun item => es.set k.name item
  | k :: path, es =>
    match es.get? k.name with
    | none =>
      (Entries.alter? made f path []).map fun inner => es.set k.name (.table k.span made inner)
    | some (.table span origin inner) =>
      if origin = .braces ∨ (made = .dotted ∧ origin = .header) then none
      else
        (Entries.alter? made f path inner).map fun inner =>
          es.set k.name (.table span origin inner)
    | some (.tables span items) =>
      match items.getLast? with
      | some (.table last origin inner) =>
        (Entries.alter? made f path inner).map fun inner =>
          es.set k.name (.tables span (items.dropLast ++ [.table last origin inner]))
      | _ => none
    | some _ => none

/-- The item at a path, if there is one. -/
def Entries.find? : List Key → Entries → Option Item
  | [], _ => none
  | [k], es => es.get? k.name
  | k :: path, es =>
    match es.get? k.name with
    | some (.table _ _ inner) => Entries.find? path inner
    | some (.tables _ items) =>
      match items.getLast? with
      | some (.table _ _ inner) => Entries.find? path inner
      | _ => none
    | _ => none

/-- Whether the table that holds the last part of a dotted key is one that dotted keys make. -/
def Entries.holdsDotted (path : List Key) (es : Entries) : Bool :=
  match path.dropLast with
  | [] => true
  | outer =>
    match Entries.find? outer es with
    | none => true
    | some (.table _ origin _) => origin == .dotted
    | some _ => false

/-- Adds the line `path = item` to a table. -/
def Entries.addLine? (es : Entries) (path : List Key) (item : Item) : Option Entries :=
  if es.holdsDotted path then
    es.alter? .dotted (fun old => if old.isNone then some item else none) path
  else none

/-- A document that is being built: the closed part, the open header and the lines below it. -/
structure Draft where
  root : Entries := []
  header : Option Header := none
  lines : Entries := []

namespace Draft

/-- Adds the lines below the open header to the document. -/
def close? (d : Draft) : Option Entries :=
  match d.header with
  | none => some d.lines
  | some h =>
    let table : Item := .table h.span .header d.lines
    let place (old : Option Item) : Option Item :=
      if h.double then
        match old with
        | none => some (.tables h.span [table])
        | some (.tables span items) => some (.tables span (items ++ [table]))
        | some _ => none
      else some table
    d.root.alter? .implied place h.path

/-- Opens a header. A table that is only implied so far keeps its entries. -/
def open? (d : Draft) (h : Header) : Option Draft := do
  let root ← d.close?
  let lines ←
    match Entries.find? h.path root with
    | none => some []
    | some (.table _ .implied inner) => if h.double then none else some inner
    | some (.tables _ _) => if h.double then some [] else none
    | some _ => none
  some { root, header := some h, lines }

/-- Adds a line below the open header. -/
def addLine? (d : Draft) (path : List Key) (item : Item) : Option Draft :=
  (d.lines.addLine? path item).map fun lines => { d with lines }

end Draft

end OneShot.Toml
