/-
  CanDfu.Proofs.TomlDocuments

  Reading inverts writing on plain tables: tables of plain values under names without quotes, and of
  such tables after them.  The printed document says one statement for each line, and each statement
  adds to the table that the latest header opened.  That table is always the last one of those
  around it, so a place in the document being put together is known by the entries before it.
-/
import CanDfu.Proofs.TomlLines

namespace CanDfu.Toml

/-! ## Plain tables -/

/-- The tables whose documents are read back as they are: names without quotes, none of them twice;
plain values, and after them tables that are plain too, in at most `levels` levels. -/
inductive Table.Plain : (levels : Nat) → Table → Prop
  | nil (levels : Nat) : Plain levels []
  | line {levels depth : Nat} {name : String} {v : Value} {rest : Table} (bare : Bare name)
      (fresh : ∀ entry ∈ rest, entry.1 ≠ name) (hdepth : depth < Scan.depthLimit)
      (value : v.Plain depth) (more : Plain levels rest) : Plain levels ((name, v) :: rest)
  | table {levels : Nat} {name : String} {entries rest : Table} (bare : Bare name)
      (fresh : ∀ entry ∈ rest, entry.1 ≠ name)
      (last : ∀ entry ∈ rest, Printer.isTable entry.2 = true) (inside : Plain levels entries)
      (more : Plain (levels + 1) rest) : Plain (levels + 1) ((name, .table entries) :: rest)

/-- A plain value is no table. -/
theorem Value.Plain.isTable_eq {depth : Nat} {v : Value} (h : v.Plain depth) :
    Printer.isTable v = false := by
  cases h <;> rfl

theorem ne_table_of_isTable {v : Value} (h : Printer.isTable v = false)
    (entries : List (String × Value)) : v ≠ .table entries := by
  rintro rfl
  exact absurd h (by simp [Printer.isTable])

/-- Whether a table has a header of its own: it has lines, or nothing at all. -/
def headed (entries : Table) : Bool :=
  entries.isEmpty || entries.any fun (_, v) => !Printer.isTable v

/-- The statements of the lines of a table. -/
def lineStatements (t : Table) : List Statement :=
  (t.filter fun (_, v) => !Printer.isTable v).map fun (name, v) => .entry [] name v

/-- The statements of the tables inside a table at a path. -/
def blockStatements (path : List String) : Table → List Statement
  | [] => []
  | (name, .table entries) :: rest =>
    (if headed entries then .table path name :: lineStatements entries else [])
      ++ blockStatements (path ++ [name]) entries ++ blockStatements path rest
  | _ :: rest => blockStatements path rest

theorem blockStatements_line {name : String} {v : Value} (h : Printer.isTable v = false)
    (path : List String) (rest : Table) :
    blockStatements path ((name, v) :: rest) = blockStatements path rest := by
  rw [blockStatements]
  rintro _ entries heq
  exact ne_table_of_isTable h entries (Prod.mk.inj heq).2

/-! ## What a document says -/

/-- The lines of a plain table say their statements. -/
theorem lines_printed {levels : Nat} {t : Table} (h : t.Plain levels) :
    ∃ text, Printer.lines t = some text ∧
      ∀ cs ss, Says cs ss → Says (text.toList ++ cs) (lineStatements t ++ ss) := by
  induction h with
  | nil levels => exact ⟨"", rfl, fun _ _ h => h⟩
  | @line levels depth name v rest bare fresh hdepth value more ih =>
    obtain ⟨text, htext, hreads⟩ := value_printed value
    obtain ⟨after, hafter, hsaid⟩ := ih
    refine ⟨Printer.key name ++ " = " ++ text ++ "\n" ++ after, ?_, ?_⟩
    · simp [Printer.lines, value.isTable_eq, htext, hafter]
    · intro cs ss h
      have hentry := says_entry bare hdepth hreads (hsaid cs ss h)
      simpa [lineStatements, value.isTable_eq] using hentry
  | @table levels name entries rest bare fresh last inside more ihInside ihMore =>
    obtain ⟨after, hafter, hsaid⟩ := ihMore
    refine ⟨after, ?_, ?_⟩
    · simp [Printer.lines, Printer.isTable, hafter]
    · intro cs ss h
      simpa [lineStatements, Printer.isTable] using hsaid cs ss h

/-- Texts one below the other, each after a blank line. -/
def below (blocks : List String) : List Char := blocks.flatMap fun block => '\n' :: block.toList

/-- The tables inside a plain table say their statements. -/
theorem blocks_printed {levels : Nat} {t : Table} (h : t.Plain levels) :
    ∀ path : List String, (∀ part ∈ path, Bare part) → path.length + levels < Scan.depthLimit →
      ∃ blocks, Printer.blocks path t = some blocks ∧
        ∀ cs ss, Says cs ss → Says (below blocks ++ cs) (blockStatements path t ++ ss) := by
  induction h with
  | nil levels =>
    intro path _ _
    refine ⟨[], by rw [Printer.blocks], fun cs ss h => ?_⟩
    rw [blockStatements]
    exact h
  | @line levels depth name v rest bare fresh hdepth value more ih =>
    intro path hpath hroom
    obtain ⟨blocks, hblocks, hsaid⟩ := ih path hpath hroom
    refine ⟨blocks, ?_, ?_⟩
    · rw [Printer.blocks, hblocks]
      exact fun _ entries heq => ne_table_of_isTable value.isTable_eq entries (Prod.mk.inj heq).2
    · intro cs ss h
      rw [blockStatements_line value.isTable_eq]
      exact hsaid cs ss h
  | @table levels name entries rest bare fresh last inside more ihInside ihMore =>
    intro path hpath hroom
    have hhere : ∀ part ∈ path ++ [name], Bare part := by
      intro part hpart
      rcases List.mem_append.mp hpart with hpart | hpart
      · exact hpath part hpart
      · exact List.mem_singleton.mp hpart ▸ bare
    obtain ⟨lines, hlines, hsaysLines⟩ := lines_printed inside
    obtain ⟨nested, hnested, hsaysNested⟩ := ihInside (path ++ [name]) hhere (by simp; omega)
    obtain ⟨after, hafter, hsaysAfter⟩ := ihMore path hpath hroom
    -- a table of tables only is written without a header, and those in it name it
    by_cases hheaded : headed entries = true
    · refine ⟨["[" ++ ".".intercalate ((path ++ [name]).map Printer.key) ++ "]\n" ++ lines]
        ++ nested ++ after, ?_, ?_⟩
      · simp only [headed] at hheaded
        simp [Printer.blocks, hheaded, hlines, hnested, hafter]
      · intro cs ss h
        have hblock := says_header hhere (by omega)
          (hsaysLines _ _ (hsaysNested _ _ (hsaysAfter cs ss h)))
        have hblank := (says_blank_iff _ _).mpr hblock
        simpa [below, blockStatements, hheaded] using hblank
    · refine ⟨nested ++ after, ?_, ?_⟩
      · simp only [headed] at hheaded
        simp [Printer.blocks, hheaded, hnested, hafter]
      · intro cs ss h
        have hblock := hsaysNested _ _ (hsaysAfter cs ss h)
        simpa [below, blockStatements, hheaded] using hblock

theorem toList_intercalate_cons : ∀ (block : String) (blocks : List String),
    ("\n".intercalate (block :: blocks)).toList = block.toList ++ below blocks
  | block, [] => by simp [below]
  | block, next :: blocks => by
    rw [String.intercalate_cons_cons, String.toList_append, String.toList_append,
      toList_intercalate_cons next blocks]
    simp [below]

/-- The document of a plain table says the statements of its lines and of the tables in it. -/
theorem document_printed {levels : Nat} {t : Table} (h : t.Plain levels)
    (hroom : levels < Scan.depthLimit) :
    ∃ text, Printer.document t = some text ∧
      Says text.toList (lineStatements t ++ blockStatements [] t) := by
  obtain ⟨top, htop, hsaysLines⟩ := lines_printed h
  obtain ⟨nested, hnested, hsaysNested⟩ := blocks_printed h [] (by simp) (by simpa using hroom)
  have hsaid : Says (top.toList ++ below nested) (lineStatements t ++ blockStatements [] t) := by
    simpa using hsaysLines _ _ (hsaysNested [] [] says_nil)
  refine ⟨"\n".intercalate (if top.isEmpty then nested else top :: nested), ?_, ?_⟩
  · simp [Printer.document, htop, hnested]
  · by_cases hempty : top.isEmpty = true
    · rw [if_pos hempty]
      rw [String.isEmpty_iff.mp hempty] at hsaid
      cases nested with
      | nil => exact hsaid
      | cons block blocks =>
        rw [toList_intercalate_cons]
        exact (says_blank_iff _ _).mp hsaid
    · rw [if_neg hempty, toList_intercalate_cons]
      exact hsaid

/-! ## Places in a document being put together -/

/-- A table around a place: the entries before the one that the place is in, and that entry's name
and origin.  The name is not used before. -/
structure Around where
  before : Tree
  name : String
  origin : Origin
  fresh : before.lookup name = none

/-- A place: the tables around it, the outermost first. -/
abbrev Place : Type := List Around

namespace Place

/-- The path to a place. -/
def path (p : Place) : List String := p.map (·.name)

/-- The document with a table at a place. -/
def put : Place → Tree → Tree
  | [], t => t
  | a :: p, t => a.before ++ [(a.name, .table a.origin (put p t))]

theorem put_append (p : Place) (a : Around) (t : Tree) :
    put (p ++ [a]) t = put p (a.before ++ [(a.name, .table a.origin t)]) := by
  induction p with
  | nil => rfl
  | cons b p ih => rw [List.cons_append, put, put, ih]

theorem path_append (p : Place) (a : Around) : path (p ++ [a]) = path p ++ [a.name] := by
  simp [path]

end Place

namespace Tree

/-- The last entry is found under its name, if the name is not used before. -/
theorem lookup_append_singleton {t : Tree} {name : String} (h : t.lookup name = none)
    (item : Item) : (t ++ [(name, item)]).lookup name = some item := by
  simp [List.lookup_append, h]

/-- Replacing the last entry leaves the others. -/
theorem replace_append_singleton {t : Tree} {name : String} (h : t.lookup name = none)
    (old item : Item) : Tree.replace (t ++ [(name, old)]) name item = t ++ [(name, item)] := by
  have hbefore : Tree.replace t name item = t := by
    rw [Tree.replace]
    refine (List.map_congr_left fun entry hentry => ?_).trans (List.map_id t)
    have hne : entry.1 ≠ name := by
      intro heq
      have := List.lookup_eq_none_iff.mp h entry hentry
      simp [heq] at this
    simp [hne]
  have hsplit : Tree.replace (t ++ [(name, old)]) name item
      = Tree.replace t name item ++ Tree.replace [(name, old)] name item := List.map_append
  rw [hsplit, hbefore]
  simp [Tree.replace]

/-- What is changed at the end of the path to a place is the table at the place. -/
theorem descend_put (change : Tree → Option Tree) (p : Place) (origin : Origin) (t : Tree) :
    descend false (fun _ t => change t) p.path origin (p.put t) = (change t).map p.put := by
  induction p generalizing origin with
  | nil =>
    simp only [Place.path, List.map_nil, descend]
    cases h : change t <;> simp [Place.put, h]
  | cons a p ih =>
    have hpath : Place.path (a :: p) = a.name :: Place.path p := rfl
    rw [hpath, Place.put, descend, lookup_append_singleton a.fresh]
    simp only [Bool.false_and, Bool.false_eq_true, if_false, ih, Option.bind_eq_bind]
    cases h : change t with
    | none => rfl
    | some changed => simp [replace_append_singleton a.fresh, Place.put]

/-- A table that a path names, but that is not there, is as good as one that was only named. -/
theorem descend_missing (change : Origin → Tree → Option Tree) {name : String} {t : Tree}
    (h : t.lookup name = none) (more : List String) (p : Place) (origin : Origin) :
    descend false change (p.path ++ name :: more) origin (p.put t)
      = descend false change (p.path ++ name :: more) origin
          (p.put (t ++ [(name, .table ⟨true, false⟩ [])])) := by
  induction p generalizing origin with
  | nil =>
    have hpath : Place.path [] = [] := rfl
    rw [hpath, Place.put, Place.put, List.nil_append, descend, descend, h,
      lookup_append_singleton h]
    simp only [Bool.false_and, Bool.false_eq_true, if_false, replace_append_singleton h]
  | cons a p ih =>
    have hpath : Place.path (a :: p) = a.name :: Place.path p := rfl
    rw [hpath, List.cons_append, Place.put, Place.put, descend, descend,
      lookup_append_singleton a.fresh, lookup_append_singleton a.fresh]
    simp only [Bool.false_and, Bool.false_eq_true, if_false, ih, replace_append_singleton a.fresh]

/-- A value is added to the table at a place, under a name that is not used there. -/
theorem insertUnder_put (p : Place) {t : Tree} {name : String} (h : t.lookup name = none)
    (v : Value) :
    Tree.insertUnder p.path [] name v (p.put t) = some (p.put (t ++ [(name, .value v)])) := by
  have hinsert : Tree.insert [] name v t = some (t ++ [(name, .value v)]) := by
    simp [Tree.insert, descend, h]
  rw [Tree.insertUnder, descend_put, hinsert, Option.map_some]

/-- A table is started in the table at a place, under a name that is not used there. -/
theorem openTable_put (p : Place) {t : Tree} {name : String} (h : t.lookup name = none) :
    Tree.openTable p.path name (p.put t) = some (p.put (t ++ [(name, .table {} [])])) := by
  rw [Tree.openTable, descend_put, h]
  rfl

/-- A name that is not used stays unused when another one is. -/
theorem lookup_append_ne {t : Tree} {name other : String} (h : t.lookup name = none)
    (hne : name ≠ other) (item : Item) : (t ++ [(other, item)]).lookup name = none := by
  have hother : (name == other) = false := by simpa using hne
  simp [List.lookup_append, h, List.lookup_cons, hother]

end Tree

/-! ## Putting a document together -/

/-- The entries that the lines of a table add. -/
def lineItems (t : Table) : Tree :=
  (t.filter fun (_, v) => !Printer.isTable v).map fun (name, v) => (name, .value v)

/-- The entries that the tables inside a table add. -/
def tableItems : Table → Tree
  | [] => []
  | (name, .table entries) :: rest =>
    (name, .table ⟨!headed entries, false⟩ (lineItems entries ++ tableItems entries))
      :: tableItems rest
  | _ :: rest => tableItems rest

theorem lineItems_line {name : String} {v : Value} (h : Printer.isTable v = false) (rest : Table) :
    lineItems ((name, v) :: rest) = (name, .value v) :: lineItems rest := by
  simp [lineItems, h]

theorem tableItems_line {name : String} {v : Value} (h : Printer.isTable v = false)
    (rest : Table) : tableItems ((name, v) :: rest) = tableItems rest := by
  rw [tableItems]
  rintro _ entries heq
  exact ne_table_of_isTable h entries (Prod.mk.inj heq).2

theorem lineItems_table (name : String) (entries rest : Table) :
    lineItems ((name, .table entries) :: rest) = lineItems rest := by
  simp [lineItems, Printer.isTable]

/-- The lines of a plain table are added to the table at a place. -/
theorem assemble_lines {levels : Nat} {t : Table} (h : t.Plain levels) (p : Place)
    (ss : List Statement) : ∀ e : Tree, (∀ entry ∈ t, e.lookup entry.1 = none) →
      Parser.assemble p.path (p.put e) (lineStatements t ++ ss)
        = Parser.assemble p.path (p.put (e ++ lineItems t)) ss := by
  induction h with
  | nil levels => exact fun e _ => by simp [lineStatements, lineItems]
  | @line levels depth name v rest bare fresh hdepth value more ih =>
    intro e hunused
    have hstatements : lineStatements ((name, v) :: rest)
        = .entry [] name v :: lineStatements rest := by
      simp [lineStatements, value.isTable_eq]
    have hunusedMore : ∀ entry ∈ rest, (e ++ [(name, Item.value v)]).lookup entry.1 = none :=
      fun entry hentry => Tree.lookup_append_ne
        (hunused entry (List.mem_cons_of_mem _ hentry)) (fresh entry hentry) (.value v)
    rw [hstatements, List.cons_append, Parser.assemble,
      Tree.insertUnder_put p (hunused (name, v) List.mem_cons_self) v, Option.bind_eq_bind,
      Option.bind_some, ih _ hunusedMore, lineItems_line value.isTable_eq, List.append_assoc,
      List.singleton_append]
  | @table levels name entries rest bare fresh last inside more ihInside ihMore =>
    intro e hunused
    have hstatements : lineStatements ((name, .table entries) :: rest) = lineStatements rest := by
      simp [lineStatements, Printer.isTable]
    rw [hstatements, lineItems_table]
    exact ihMore e fun entry hentry => hunused entry (List.mem_cons_of_mem _ hentry)

/-- In a table of nothing but tables no line adds anything. -/
theorem lineItems_eq_nil {t : Table} (h : ∀ entry ∈ t, Printer.isTable entry.2 = true) :
    lineItems t = [] := by
  simp only [lineItems, List.map_eq_nil_iff, List.filter_eq_nil_iff]
  intro entry hentry
  simp [h entry hentry]

/-- The names of the tables in a plain table are not those of its lines. -/
theorem Table.Plain.lookup_lineItems {levels : Nat} {t : Table} (h : t.Plain levels) :
    ∀ entry ∈ t, Printer.isTable entry.2 = true → (lineItems t).lookup entry.1 = none := by
  induction h with
  | nil levels => exact fun entry hentry => absurd hentry (List.not_mem_nil)
  | @line levels depth name v rest bare fresh hdepth value more ih =>
    intro entry hentry htable
    rcases List.mem_cons.mp hentry with rfl | hentry
    · exact absurd htable (by simp [value.isTable_eq])
    · have hne : (entry.1 == name) = false := by simpa using fresh entry hentry
      rw [lineItems_line value.isTable_eq, List.lookup_cons, hne]
      exact ih entry hentry htable
  | @table levels name entries rest bare fresh last inside more ihInside ihMore =>
    intro entry hentry _
    rw [lineItems_table, lineItems_eq_nil last]
    rfl

/-- In a table without a header of its own, the first thing said is the header of a table further
in. -/
theorem Table.Plain.blockStatements_eq {levels : Nat} {t : Table} (h : t.Plain levels) :
    headed t = false → ∀ path, ∃ more last ss,
      blockStatements path t = .table (path ++ more) last :: ss := by
  induction h with
  | nil levels => exact fun hheaded => absurd hheaded (by decide)
  | @line levels depth name v rest bare fresh hdepth value more ih =>
    exact fun hheaded => absurd hheaded (by simp [headed, value.isTable_eq])
  | @table levels name entries rest bare fresh last inside more ihInside ihMore =>
    intro _ path
    by_cases hheaded : headed entries = true
    · exact ⟨[], name, _, by rw [blockStatements, if_pos hheaded]; simp; rfl⟩
    · obtain ⟨more, last, ss, hss⟩ := ihInside (Bool.eq_false_iff.mpr hheaded) (path ++ [name])
      exact ⟨name :: more, last, _, by rw [blockStatements, if_neg hheaded, hss]; simp; rfl⟩

/-- A table with a header or without one, the place inside it is reached with its lines added. -/
theorem assemble_own {levels : Nat} {entries : Table} (h : entries.Plain levels) (p : Place)
    {e : Tree} {name : String} (hunused : e.lookup name = none) (header : List String)
    (ss : List Statement) :
    ∃ header', Parser.assemble header (p.put e)
        ((if headed entries then .table p.path name :: lineStatements entries else [])
          ++ (blockStatements (p.path ++ [name]) entries ++ ss))
      = Parser.assemble header' (p.put (e ++ [(name,
          .table ⟨!headed entries, false⟩ (lineItems entries))]))
          (blockStatements (p.path ++ [name]) entries ++ ss) := by
  -- a header opens the table; without one it comes to be with the first header further in
  by_cases hheaded : headed entries = true
  · let around : Around := ⟨e, name, {}, hunused⟩
    have hlines := assemble_lines h (p ++ [around])
      (blockStatements (p.path ++ [name]) entries ++ ss) [] fun _ _ => rfl
    rw [Place.put_append, Place.put_append, Place.path_append, List.nil_append] at hlines
    refine ⟨p.path ++ [name], ?_⟩
    rw [if_pos hheaded, List.cons_append, Parser.assemble, Tree.openTable_put p hunused, hheaded]
    exact hlines
  · have hall : ∀ entry ∈ entries, Printer.isTable entry.2 = true := by
      simp only [headed, Bool.or_eq_true, List.any_eq_true, not_or, not_exists, not_and] at hheaded
      intro entry hentry
      simpa using hheaded.2 entry hentry
    obtain ⟨more, last, after, hafter⟩ :=
      h.blockStatements_eq (Bool.eq_false_iff.mpr hheaded) (p.path ++ [name])
    refine ⟨header, ?_⟩
    rw [if_neg hheaded, List.nil_append, hafter, List.cons_append, Parser.assemble,
      Parser.assemble, Tree.openTable, Tree.openTable, List.append_assoc, List.singleton_append,
      Tree.descend_missing _ hunused more p, lineItems_eq_nil hall,
      Bool.eq_false_iff.mpr hheaded]
    rfl

/-- The tables inside a plain table are added to the table at a place. -/
theorem assemble_blocks {levels : Nat} {t : Table} (h : t.Plain levels) :
    ∀ (p : Place) (e : Tree) (header : List String) (ss : List Statement),
      (∀ entry ∈ t, Printer.isTable entry.2 = true → e.lookup entry.1 = none) →
      ∃ header', Parser.assemble header (p.put e) (blockStatements p.path t ++ ss)
        = Parser.assemble header' (p.put (e ++ tableItems t)) ss := by
  induction h with
  | nil levels =>
    intro p e header ss _
    exact ⟨header, by rw [blockStatements, tableItems, List.append_nil]; rfl⟩
  | @line levels depth name v rest bare fresh hdepth value more ih =>
    intro p e header ss hunused
    rw [blockStatements_line value.isTable_eq, tableItems_line value.isTable_eq]
    exact ih p e header ss fun entry hentry => hunused entry (List.mem_cons_of_mem _ hentry)
  | @table levels name entries rest bare fresh last inside more ihInside ihMore =>
    intro p e header ss hunused
    have hname : e.lookup name = none := hunused (name, .table entries) List.mem_cons_self rfl
    let around : Around := ⟨e, name, ⟨!headed entries, false⟩, hname⟩
    -- the table's own lines, the tables in it, and the tables after it
    obtain ⟨first, hown⟩ := assemble_own inside p hname header (blockStatements p.path rest ++ ss)
    obtain ⟨second, hinside⟩ := ihInside (p ++ [around]) (lineItems entries) first
      (blockStatements p.path rest ++ ss) inside.lookup_lineItems
    rw [Place.put_append, Place.put_append, Place.path_append] at hinside
    obtain ⟨third, hmore⟩ := ihMore p
      (e ++ [(name, .table ⟨!headed entries, false⟩ (lineItems entries ++ tableItems entries))])
      second ss fun entry hentry htable => Tree.lookup_append_ne
        (hunused entry (List.mem_cons_of_mem _ hentry) htable) (fresh entry hentry) _
    refine ⟨third, ?_⟩
    rw [blockStatements, tableItems, List.append_assoc, List.append_assoc, hown, hinside, hmore,
      List.append_assoc, List.singleton_append]

/-- What the lines and the tables of a plain table add makes the table. -/
theorem toTable_items {levels : Nat} {t : Table} (h : t.Plain levels) :
    Tree.toTable (lineItems t ++ tableItems t) = t := by
  induction h with
  | nil levels => rw [tableItems, lineItems_eq_nil (by simp)]; rfl
  | @line levels depth name v rest bare fresh hdepth value more ih =>
    rw [lineItems_line value.isTable_eq, tableItems_line value.isTable_eq, List.cons_append,
      Tree.toTable, entriesToTable, Item.toValue]
    rw [Tree.toTable] at ih
    rw [ih]
  | @table levels name entries rest bare fresh last inside more ihInside ihMore =>
    rw [lineItems_eq_nil last, List.nil_append] at ihMore
    rw [lineItems_table, lineItems_eq_nil last, List.nil_append, tableItems, Tree.toTable,
      entriesToTable, Item.toValue]
    rw [Tree.toTable] at ihInside ihMore
    rw [ihInside, ihMore]

/-- The document of a plain table is read back as the table. -/
theorem parse?_document {levels : Nat} {t : Table} (h : t.Plain levels)
    (hroom : levels < Scan.depthLimit) :
    ∃ text, Printer.document t = some text ∧ parse? text = some t := by
  obtain ⟨text, htext, hsaid⟩ := document_printed h hroom
  have hstatements : Parser.statements (text.toList.length + 2) text.toList
      = some (lineStatements t ++ blockStatements [] t) := hsaid _ (by omega)
  have hlines := assemble_lines h [] (blockStatements [] t) [] fun _ _ => rfl
  obtain ⟨header, hblocks⟩ := assemble_blocks h [] (lineItems t) [] [] h.lookup_lineItems
  have hassemble : Parser.assemble [] [] (lineStatements t ++ blockStatements [] t)
      = some (lineItems t ++ tableItems t) := by
    rw [List.append_nil] at hblocks
    exact hlines.trans hblocks
  refine ⟨text, htext, ?_⟩
  unfold parse?
  split
  · rename_i heq
    exact absurd (by rw [heq]; rfl) hsaid.head?_ne
  · simp only [hstatements, hassemble, toTable_items h, Option.bind_eq_bind, Option.bind_some]

end CanDfu.Toml
