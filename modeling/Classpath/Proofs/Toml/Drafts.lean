import Classpath.Proofs.Collections
import Classpath.Toml.Draft
import Classpath.Toml.Writer

namespace Classpath.Toml.Draft

/-! # Drafts of written tables

The statements of a table, taken one after the other, make a draft that closes to the table again,
with its entries in the order of their keys:

1. **Paths**: two changes at one path are one change, and a change below a path is a change at it.
2. **Entries**: taking an entry adds one key that was not there, so taking many with different keys
   makes the map of them, in whatever order they come.
3. **Headers**: what stands below a header changes only the table that it opened. -/

open OrderedMap (insertInto lookIn)

/-! ## Changes along a path -/

/-- Two changes at a path are one. -/
theorem update_bind (f g : Entries → Option Entries) (path : List String) (es : Entries) :
    (update f path es).bind (update g path) = update (fun es => (f es).bind g) path es := by
  induction path generalizing es with
  | nil => rfl
  | cons k ks ih =>
    -- The first change leaves a table or an array under `k`, and the second one enters it again.
    have hagain (make : Entries → Draft) (inner : Entries)
        (henter : ∀ inner, update g (k :: ks) (insertInto k (make inner) es) =
          (update g ks inner).map fun inner => insertInto k (make inner) es) :
        ((update f ks inner).map fun inner => insertInto k (make inner) es).bind
            (update g (k :: ks)) =
          (update (fun es => (f es).bind g) ks inner).map fun inner =>
            insertInto k (make inner) es := by
      rw [← ih, Option.bind_map, Option.map_bind]
      exact congrArg _ (funext henter)
    rw [update, update]
    cases lookIn k es with
    | none =>
      refine hagain (.table .mentioned) [] fun inner => ?_
      simp [update, OrderedMap.lookIn_insertInto]
    | some d =>
      cases d with
      | value d => rfl
      | table origin inner =>
        refine hagain (.table origin) inner fun inner => ?_
        simp [update, OrderedMap.lookIn_insertInto]
      | tables done last =>
        refine hagain (.tables done) last fun inner => ?_
        simp [update, OrderedMap.lookIn_insertInto]

/-- A change below a path is a change at the path. -/
theorem update_append (f : Entries → Option Entries) (path below : List String) (es : Entries) :
    update f (path ++ below) es = update (update f below) path es := by
  induction path generalizing es with
  | nil => rfl
  | cons k ks ih =>
    rw [List.cons_append, update, update]
    simp only [ih]

/-- A change at a path and one further below are one change at the path. -/
theorem update_bind_below (f g : Entries → Option Entries) (path below : List String)
    (es : Entries) :
    (update f path es).bind (update g (path ++ below)) =
      update (fun es => (f es).bind (update g below)) path es := by
  have hbelow : update g (path ++ below) = update (update g below) path :=
    funext fun es => update_append g path below es
  rw [hbelow]
  exact update_bind f (update g below) path es

/-- A change that does what another one does wherever that one is possible. -/
theorem update_of_imp {f g : Entries → Option Entries}
    (h : ∀ es es', f es = some es' → g es = some es') {path : List String} {es es' : Entries}
    (hf : update f path es = some es') : update g path es = some es' := by
  induction path generalizing es es' with
  | nil => exact h es es' hf
  | cons k ks ih =>
    rw [update] at hf ⊢
    split at hf
    next =>
      obtain ⟨inner, hinner, rfl⟩ := Option.map_eq_some_iff.1 hf
      simp [ih hinner]
    next =>
      obtain ⟨inner, hinner, rfl⟩ := Option.map_eq_some_iff.1 hf
      simp [ih hinner]
    next =>
      obtain ⟨inner, hinner, rfl⟩ := Option.map_eq_some_iff.1 hf
      simp [ih hinner]
    next => exact absurd hf (by simp)

/-- After a change at a path the path is there. -/
theorem update_some {f : Entries → Option Entries} {path : List String} {es es' : Entries}
    (h : update f path es = some es') : update some path es' = some es' := by
  have hbind := update_bind f some path es
  simp only [Option.bind_fun_some, h, Option.bind_some] at hbind
  exact hbind

/-- What a change makes below a path is there after it. -/
theorem update_some_below {f : Entries → Option Entries} {path below : List String}
    {es es' : Entries} (hbelow : ∀ es es', f es = some es' → update some below es' = some es')
    (h : update f path es = some es') : update some (path ++ below) es' = some es' := by
  have hboth : update (fun es => (f es).bind (update some below)) path es = some es' := by
    refine update_of_imp (fun es es' hf => ?_) h
    simp only [hf, Option.bind_some]
    exact hbelow es es' hf
  rw [← update_bind_below, h, Option.bind_some] at hboth
  exact hboth

/-! ## New entries -/

/-- Adds an entry under a key that is not there. -/
def addNew (key : String) (d : Draft) (es : Entries) : Option Entries :=
  if (lookIn key es).isNone then some (insertInto key d es) else none

/-- Adds entries in turn, each under a key that is not there. -/
def addAll : List (String × Draft) → Entries → Option Entries
  | [], es => some es
  | x :: xs, es => (addNew x.1 x.2 es).bind (addAll xs)

theorem addNew_eq_some_iff {key : String} {d : Draft} {es es' : Entries} :
    addNew key d es = some es' ↔ lookIn key es = none ∧ insertInto key d es = es' := by
  simp [addNew]

theorem assign_nil (key : String) (d : Document) : assign true key d [] = addNew key (.value d) :=
  funext fun es => by simp [assign, addNew]

theorem addAll_append (xs ys : List (String × Draft)) (es : Entries) :
    addAll (xs ++ ys) es = (addAll xs es).bind (addAll ys) := by
  induction xs generalizing es with
  | nil => rfl
  | cons x xs ih =>
    simp only [List.cons_append, addAll, Option.bind_assoc]
    exact congrArg _ (funext ih)

theorem addAll_insertAll {xs : List (String × Draft)} (m : OrderedMap String Draft)
    (hxs : (xs.map Prod.fst).Nodup) (hm : ∀ x ∈ xs, m.get? x.1 = none) :
    addAll xs m.entries = some (m.insertAll xs).entries := by
  -- On the list, for every map that has none of its keys: each entry adds one key to it.
  induction xs generalizing m with
  | nil => rfl
  | cons x xs ih =>
    obtain ⟨hx, hxs⟩ := List.nodup_cons.1 hxs
    have hnew : addNew x.1 x.2 m.entries = some (m.insert x.1 x.2).entries :=
      addNew_eq_some_iff.2 ⟨hm x List.mem_cons_self, rfl⟩
    rw [addAll, hnew]
    refine ih (m.insert x.1 x.2) hxs fun y hy => ?_
    have hne : x.1 ≠ y.1 := by
      intro heq
      exact hx (heq ▸ List.mem_map_of_mem hy)
    rw [OrderedMap.get?_insert, if_neg hne]
    exact hm y (List.mem_cons_of_mem x hy)

/-- Entries with different keys make the map of them. -/
theorem addAll_nil {xs : List (String × Draft)} (hxs : (xs.map Prod.fst).Nodup) :
    addAll xs [] = some (OrderedMap.ofList xs).entries :=
  addAll_insertAll OrderedMap.empty hxs fun _ _ => rfl

/-! ## Statements in turn -/

/-- The root table after some statements, if they fit together. -/
def settle (statements : List Statement) (s : State) : Option Entries :=
  (statements.foldlM State.step s).bind State.complete

theorem orMalformed_eq_ok {α : Type} {meaning : Option α} {a : α} :
    orMalformed meaning = .ok a ↔ meaning = some a := by
  cases meaning <;> simp [orMalformed]

theorem orMalformed_bind {α β : Type} (x : Option α) (f : α → Option β) :
    orMalformed (x.bind f) = (orMalformed x).bind fun a => orMalformed (f a) := by
  cases x <;> rfl

theorem foldlM_take (statements : List Statement) (s : State) :
    (statements.map Except.ok).foldlM State.take s =
      orMalformed (statements.foldlM State.step s) := by
  induction statements generalizing s with
  | nil => rfl
  | cons statement statements ih =>
    have htake : s.take (.ok statement) = orMalformed (s.step statement) := rfl
    rw [List.map_cons, List.foldlM_cons, List.foldlM_cons, htake]
    exact (congrArg _ (funext ih)).trans (orMalformed_bind _ _).symm

theorem closeEntries_eq_map (entries : List (String × Draft)) :
    closeEntries entries = entries.map fun e => (e.1, e.2.close) := by
  induction entries with
  | nil => rfl
  | cons e es ih => rw [closeEntries, ih, List.map_cons]

/-- Statements that are spelled right fail only if they do not fit together. -/
theorem ofStatements_ok (statements : List Statement) :
    ofStatements (statements.map .ok) =
      (orMalformed (settle statements ⟨[], .inside []⟩)).map closeEntries := by
  rw [settle, ofStatements, foldlM_take, orMalformed_bind]
  cases statements.foldlM State.step ⟨[], .inside []⟩ with
  | none => rfl
  | some s => cases s.complete <;> rfl

/-- Statements of which the first is no entry. -/
def StartsHeader : List Statement → Prop
  | .entry .. :: _ => False
  | _ => True

/-- A header, or the end, completes the open table. -/
theorem settle_complete {statements : List Statement} (h : StartsHeader statements) {s : State}
    {root : Entries} (hs : s.complete = some root) :
    settle statements s = settle statements ⟨root, .inside []⟩ := by
  cases statements with
  | nil => exact hs
  | cons statement statements =>
    have hstep : s.step statement = State.step ⟨root, .inside []⟩ statement := by
      cases statement with
      | entry path key d => exact absurd h id
      | table path key =>
        simp only [State.step, hs]
        rfl
      | element path key =>
        simp only [State.step, hs]
        rfl
    rw [settle, settle, List.foldlM_cons, List.foldlM_cons, hstep]

theorem settle_cons {s s' : State} {statement : Statement} (h : s.step statement = some s')
    (statements : List Statement) : settle (statement :: statements) s = settle statements s' := by
  rw [settle, settle, List.foldlM_cons, h]
  rfl

/-! ## Entries with plain values -/

theorem change_bind (s : State) (f g : Entries → Option Entries) :
    (s.change f).bind (fun s => s.change g) = s.change fun es => (f es).bind g := by
  obtain ⟨root, target⟩ := s
  cases target with
  | inside path =>
    simp only [State.change, ← update_bind, Option.bind_map, Option.map_bind]
    rfl
  | element path key entries =>
    simp only [State.change, Option.bind_map, Option.map_bind]
    rfl

/-- After a change of the open table, it is there. -/
theorem change_some {s s' : State} {f : Entries → Option Entries} (h : s.change f = some s') :
    s'.change some = some s' := by
  have hbind := change_bind s f some
  simp only [Option.bind_fun_some, h, Option.bind_some] at hbind
  exact hbind

theorem settle_entries {entries : List (String × Document)} {s s' : State}
    (hopen : s.change some = some s)
    (h : s.change (addAll (entries.map fun e => (e.1, .value e.2))) = some s')
    (rest : List Statement) :
    settle (entries.map (fun e => .entry [] e.1 e.2) ++ rest) s = settle rest s' := by
  induction entries generalizing s with
  | nil =>
    have heq : some s = some s' := hopen.symm.trans h
    cases heq
    rfl
  | cons e entries ih =>
    have hbind := change_bind s (addNew e.1 (.value e.2))
      (addAll (entries.map fun e => (e.1, .value e.2)))
    obtain ⟨between, hfirst, hrest⟩ := Option.bind_eq_some_iff.1 (hbind.trans h)
    have hstep : s.step (.entry [] e.1 e.2) = some between := by
      rw [State.step, assign_nil]
      exact hfirst
    rw [List.map_cons, List.cons_append, settle_cons hstep]
    -- The table stays open after the entry, so the others can be added to it.
    exact ih (change_some hfirst) hrest

/-! ## Drafts of documents -/

/-- The draft of an array of tables. -/
def ofTables (done : List Entries) (last : Entries) : List Entries → Draft
  | [] => .tables done last
  | t :: ts => ofTables (done ++ [last]) t ts

mutual

/-- The draft that the statements of a document make. -/
def ofDocument : Document → Draft
  | .table entries => .table .opened (OrderedMap.ofList (ofEntries entries)).entries
  | .sequence items =>
    match ofItems items with
    | [] => .value (.sequence items)
    | t :: ts => ofTables [] t ts
  | d => .value d

def ofEntries : List (String × Document) → List (String × Draft)
  | [] => []
  | (key, d) :: es => (key, ofDocument d) :: ofEntries es

/-- The tables at the start of a sequence. -/
def ofItems : List Document → List Entries
  | .table entries :: items => (OrderedMap.ofList (ofEntries entries)).entries :: ofItems items
  | _ => []

end

theorem ofEntries_eq_map (entries : List (String × Document)) :
    ofEntries entries = entries.map fun e => (e.1, ofDocument e.2) := by
  induction entries with
  | nil => rfl
  | cons e es ih => rw [ofEntries, ih, List.map_cons]

theorem keys_ofEntries (entries : List (String × Document)) :
    (ofEntries entries).map Prod.fst = entries.map Prod.fst := by
  rw [ofEntries_eq_map, List.map_map]
  rfl

/-! ## Headers -/

/-- The statements of a document with headers add its draft under a key that is not there yet,
whatever else comes after them. -/
def Settles (d : Document) : Prop :=
  ∀ (path : List String) (key : String) (root root' : Entries) (rest : List Statement),
    StartsHeader rest → update some path root = some root →
      update (addNew key (ofDocument d)) path root = some root' →
        settle (headed path key d ++ rest) ⟨root, .inside []⟩ = settle rest ⟨root', .inside []⟩

/-- The entries of a table that statements can describe: no key stands twice, and each value has
headers that add it, or stands as it is. -/
def Describable (entries : List (String × Document)) : Prop :=
  (entries.map Prod.fst).Nodup ∧
    ∀ e ∈ entries, hasHeaders e.2 = true ∧ Settles e.2 ∨
      hasHeaders e.2 = false ∧ isNull e.2 = false ∧ ofDocument e.2 = .value e.2

theorem startsHeader_headed (path : List String) (key : String) (d : Document)
    {rest : List Statement} (h : StartsHeader rest) : StartsHeader (headed path key d ++ rest) := by
  cases d with
  | table entries => exact trivial
  | sequence items =>
    cases items with
    | nil => exact h
    | cons item items =>
      cases item with
      | table entries => exact trivial
      | _ => exact h
  | _ => exact h

theorem startsHeader_headedEntries (path : List String) (entries : List (String × Document))
    {rest : List Statement} (h : StartsHeader rest) :
    StartsHeader (headedEntries path entries ++ rest) := by
  induction entries with
  | nil => exact h
  | cons e es ih =>
    rw [headedEntries, List.append_assoc]
    split
    · exact startsHeader_headed path e.1 e.2 ih
    · exact ih

/-- The drafts of the entries with plain values. -/
def plainDrafts (entries : List (String × Document)) : List (String × Draft) :=
  (entries.filter fun e => !hasHeaders e.2 && !isNull e.2).map fun e => (e.1, .value e.2)

/-- The drafts of the entries with headers. -/
def headedDrafts (entries : List (String × Document)) : List (String × Draft) :=
  (entries.filter fun e => hasHeaders e.2).map fun e => (e.1, ofDocument e.2)

theorem settle_headedEntries {entries : List (String × Document)}
    (h : ∀ e ∈ entries, hasHeaders e.2 = true → Settles e.2) {path : List String}
    {root root' : Entries} {rest : List Statement} (hrest : StartsHeader rest)
    (hpath : update some path root = some root)
    (hroot : update (addAll (headedDrafts entries)) path root = some root') :
    settle (headedEntries path entries ++ rest) ⟨root, .inside []⟩ =
      settle rest ⟨root', .inside []⟩ := by
  induction entries generalizing root with
  | nil =>
    have heq : some root = some root' := hpath.symm.trans hroot
    cases heq
    rfl
  | cons e es ih =>
    have htail : ∀ e ∈ es, hasHeaders e.2 = true → Settles e.2 := fun x hx =>
      h x (List.mem_cons_of_mem e hx)
    rw [headedEntries, List.append_assoc]
    by_cases hheaders : hasHeaders e.2 = true
    · have hdrafts : headedDrafts (e :: es) = (e.1, ofDocument e.2) :: headedDrafts es := by
        simp [headedDrafts, hheaders]
      rw [hdrafts] at hroot
      have hbind := update_bind (addNew e.1 (ofDocument e.2)) (addAll (headedDrafts es)) path root
      -- The statements of this entry end where those of the others start.
      obtain ⟨between, hfirst, hlast⟩ := Option.bind_eq_some_iff.1 (hbind.trans hroot)
      rw [if_pos hheaders, h e List.mem_cons_self hheaders path e.1 root between _
        (startsHeader_headedEntries path es hrest) hpath hfirst]
      exact ih htail (update_some hfirst) hlast
    · have hdrafts : headedDrafts (e :: es) = headedDrafts es := by
        simp [headedDrafts, hheaders]
      rw [hdrafts] at hroot
      rw [if_neg hheaders]
      exact ih htail hpath hroot

/-- Plain values first and those with headers after them make the map of all entries. -/
theorem Describable.addAll {entries : List (String × Document)} (h : Describable entries) :
    ∃ plain, Draft.addAll (plainDrafts entries) [] = some plain ∧
      Draft.addAll (headedDrafts entries) plain =
        some (OrderedMap.ofList (ofEntries entries)).entries := by
  have hkeys : ((ofEntries entries).map Prod.fst).Nodup := by
    rw [keys_ofEntries]
    exact h.1
  -- Nothing is null, so every entry is in exactly one of the two parts.
  have hplain : plainDrafts entries =
      (entries.filter fun e => !hasHeaders e.2).map fun e => (e.1, ofDocument e.2) := by
    have hfilter : (entries.filter fun e => !hasHeaders e.2 && !isNull e.2) =
        entries.filter fun e => !hasHeaders e.2 := by
      refine List.filter_congr fun e he => ?_
      rcases h.2 e he with ⟨hheaders, _⟩ | ⟨_, hnull, _⟩
      · simp [hheaders]
      · simp [hnull]
    rw [plainDrafts, hfilter]
    refine List.map_congr_left fun e he => ?_
    obtain ⟨he, hheaders⟩ := List.mem_filter.1 he
    rcases h.2 e he with ⟨hothers, _⟩ | ⟨_, _, hvalue⟩
    · simp [hothers] at hheaders
    · rw [hvalue]
  have hperm : (plainDrafts entries ++ headedDrafts entries).Perm (ofEntries entries) := by
    rw [hplain, headedDrafts, ← List.map_append, ofEntries_eq_map]
    refine List.Perm.map _ (List.perm_append_comm.trans ?_)
    exact List.filter_append_perm (fun e : String × Document => hasHeaders e.2) entries
  -- The order in which the two parts come does not show in the map.
  have hnodup : ((plainDrafts entries ++ headedDrafts entries).map Prod.fst).Nodup :=
    (hperm.map Prod.fst).nodup_iff.2 hkeys
  have hall := addAll_nil hnodup
  rw [addAll_append, OrderedMap.ofList_perm hnodup hperm] at hall
  exact Option.bind_eq_some_iff.1 hall

/-- What stands below a header: the entries of the open table, and the headers below it. -/
theorem settle_body {entries : List (String × Document)} (h : Describable entries)
    {s s' : State} {path : List String} {root root' : Entries} {rest : List Statement}
    (hrest : StartsHeader rest) (hopen : s.change some = some s)
    (hplain : s.change (addAll (plainDrafts entries)) = some s') (hs : s'.complete = some root)
    (hpath : update some path root = some root)
    (hroot : update (addAll (headedDrafts entries)) path root = some root') :
    settle (plainEntries entries ++ (headedEntries path entries ++ rest)) s =
      settle rest ⟨root', .inside []⟩ := by
  have hheaded : ∀ e ∈ entries, hasHeaders e.2 = true → Settles e.2 := by
    intro e he hheaders
    rcases h.2 e he with ⟨_, hsettles⟩ | ⟨hnone, _⟩
    · exact hsettles
    · simp [hheaders] at hnone
  -- First the entries of the open table; the next header or the end completes it.
  rw [plainEntries, settle_entries hopen hplain,
    settle_complete (startsHeader_headedEntries path entries hrest) hs]
  exact settle_headedEntries hheaded hrest hpath hroot

/-! ## Tables -/

theorem update_opened (f : Entries → Option Entries) (key : String) (origin : Origin)
    (inner es : Entries) :
    update f [key] (insertInto key (.table origin inner) es) =
      (f inner).map fun inner => insertInto key (.table origin inner) es := by
  simp [update, OrderedMap.lookIn_insertInto]

/-- A table under its header. -/
theorem Describable.settles {entries : List (String × Document)} (h : Describable entries) :
    Settles (.table entries) := by
  intro path key root root' rest hrest hpath hroot
  obtain ⟨plain, hplain, hheaded⟩ := h.addAll
  -- The new table is opened empty, then filled with its plain values, then with the others.
  have hfill : update (fun es => ((openTable key es).bind
      (update (Draft.addAll (plainDrafts entries)) [key])).bind
        (update (Draft.addAll (headedDrafts entries)) [key])) path root = some root' := by
    refine update_of_imp (fun es es' hnew => ?_) hroot
    obtain ⟨hlook, hinsert⟩ := addNew_eq_some_iff.1 hnew
    rw [openTable, hlook]
    simp only [Option.bind_some, update_opened, hplain, Option.map_some, hheaded]
    exact congrArg some hinsert
  rw [← update_bind_below, ← update_bind_below] at hfill
  obtain ⟨filled, hfilled, hlast⟩ := Option.bind_eq_some_iff.1 hfill
  obtain ⟨opened, hopened, hfirst⟩ := Option.bind_eq_some_iff.1 hfilled
  have hopen : update some (path ++ [key]) opened = some opened := by
    refine update_some_below (fun es es' hes => ?_) hopened
    rw [openTable] at hes
    split at hes
    · cases hes
      simp [update_opened]
    · cases hes
      simp [update_opened]
    · exact absurd hes (by simp)
  have hstep : State.step ⟨root, .inside []⟩ (.table path key) =
      some ⟨opened, .inside (path ++ [key])⟩ := by
    simp [State.step, State.complete, hopened]
  have hthere : State.change ⟨opened, .inside (path ++ [key])⟩ some =
      some ⟨opened, .inside (path ++ [key])⟩ := by
    simp [State.change, hopen]
  have hvalues : State.change ⟨opened, .inside (path ++ [key])⟩
      (Draft.addAll (plainDrafts entries)) = some ⟨filled, .inside (path ++ [key])⟩ := by
    simp [State.change, hfirst]
  rw [headed, List.append_assoc, List.cons_append, settle_cons hstep]
  exact settle_body h hrest hthere hvalues rfl (update_some hfirst) hlast

/-! ## Arrays of tables -/

/-- Adds elements to an array of tables, in turn. -/
def addElements (key : String) : List Entries → Entries → Option Entries
  | [], es => some es
  | t :: ts, es => (addElement key t es).bind (addElements key ts)

theorem addElement_tables (key : String) (t : Entries) (done : List Entries) (last es : Entries) :
    addElement key t (insertInto key (.tables done last) es) =
      some (insertInto key (.tables (done ++ [last]) t) es) := by
  simp [addElement, OrderedMap.lookIn_insertInto]

theorem addElements_tables (key : String) (done : List Entries) (last : Entries)
    (ts : List Entries) (es : Entries) :
    addElements key ts (insertInto key (.tables done last) es) =
      some (insertInto key (ofTables done last ts) es) := by
  induction ts generalizing done last with
  | nil => rfl
  | cons t ts ih =>
    rw [addElements, addElement_tables]
    exact ih (done ++ [last]) t

theorem update_element (f : Entries → Option Entries) (key : String) (done : List Entries)
    (last es : Entries) :
    update f [key] (insertInto key (.tables done last) es) =
      (f last).map fun last => insertInto key (.tables done last) es := by
  simp [update, OrderedMap.lookIn_insertInto]

/-- The elements of an array, each under a header of its own. -/
theorem settle_headedItems {tables : List (List (String × Document))}
    (h : ∀ t ∈ tables, Describable t) {path : List String} {key : String} {root root' : Entries}
    {rest : List Statement} (hrest : StartsHeader rest)
    (hpath : update some path root = some root)
    (hroot : update (addElements key (ofItems (tables.map .table))) path root = some root') :
    settle (headedItems path key (tables.map .table) ++ rest) ⟨root, .inside []⟩ =
      settle rest ⟨root', .inside []⟩ := by
  induction tables generalizing root with
  | nil =>
    have heq : some root = some root' := hpath.symm.trans hroot
    cases heq
    rfl
  | cons t ts ih =>
    obtain ⟨plain, hplain, hheaded⟩ := (h t List.mem_cons_self).addAll
    have helements : ofItems ((t :: ts).map .table) =
        (OrderedMap.ofList (ofEntries t)).entries :: ofItems (ts.map .table) := rfl
    rw [helements] at hroot
    have hbind := update_bind (addElement key (OrderedMap.ofList (ofEntries t)).entries)
      (addElements key (ofItems (ts.map .table))) path root
    obtain ⟨between, helement, hlast⟩ := Option.bind_eq_some_iff.1 (hbind.trans hroot)
    -- The array takes the element with its plain values, and the others are added to it there.
    have hfill : update (fun es => (addElement key plain es).bind
        (update (addAll (headedDrafts t)) [key])) path root = some between := by
      refine update_of_imp (fun es es' hes => ?_) helement
      rw [addElement] at hes ⊢
      split at hes
      · cases hes
        simp [update_element, hheaded]
      · cases hes
        simp [update_element, hheaded]
      · exact absurd hes (by simp)
    rw [← update_bind_below] at hfill
    obtain ⟨added, hadded, hfilled⟩ := Option.bind_eq_some_iff.1 hfill
    have hthere : update some (path ++ [key]) added = some added := by
      refine update_some_below (fun es es' hes => ?_) hadded
      rw [addElement] at hes
      split at hes
      · cases hes
        simp [update_element]
      · cases hes
        simp [update_element]
      · exact absurd hes (by simp)
    have hstep : State.step ⟨root, .inside []⟩ (.element path key) =
        some ⟨root, .element path key []⟩ := rfl
    have hstart : StartsHeader (headedItems path key (ts.map .table) ++ rest) := by
      cases ts with
      | nil => exact hrest
      | cons t ts => exact trivial
    have hvalues : State.change ⟨root, .element path key []⟩ (addAll (plainDrafts t)) =
        some ⟨root, .element path key plain⟩ := by
      simp [State.change, hplain]
    have hbody := settle_body (h t List.mem_cons_self) hstart rfl hvalues hadded hthere hfilled
    rw [List.map_cons, headedItems, List.append_assoc, List.cons_append, List.cons_append,
      List.append_assoc, settle_cons hstep, hbody]
    exact ih (fun t ht => h t (List.mem_cons_of_mem _ ht)) (update_some helement) hlast

/-- A sequence of tables under the headers of its elements. -/
theorem settles_tables {tables : List (List (String × Document))} (hne : tables ≠ [])
    (h : ∀ t ∈ tables, Describable t) : Settles (.sequence (tables.map .table)) := by
  intro path key root root' rest hrest hpath hroot
  -- Adding the array as a whole is adding its elements in turn, since the key is new.
  have hroot : update (addElements key (ofItems (tables.map .table))) path root = some root' := by
    refine update_of_imp (fun es es' hnew => ?_) hroot
    obtain ⟨hlook, hinsert⟩ := addNew_eq_some_iff.1 hnew
    cases tables with
    | nil => exact absurd rfl hne
    | cons t ts =>
      rw [List.map_cons, ofItems, addElements, addElement, hlook, Option.bind_some,
        addElements_tables]
      exact congrArg some hinsert
  rw [headed]
  exact settle_headedItems h hrest hpath hroot

/-! ## Whole documents -/

/-- All statements of a table make the map of the drafts of its entries. -/
theorem settle_statements {entries : List (String × Document)} (h : Describable entries) :
    settle (statements entries) ⟨[], .inside []⟩ =
      some (OrderedMap.ofList (ofEntries entries)).entries := by
  obtain ⟨plain, hplain, hheaded⟩ := h.addAll
  have hvalues : State.change ⟨[], .inside []⟩ (addAll (plainDrafts entries)) =
      some ⟨plain, .inside []⟩ := by
    simp [State.change, update, hplain]
  have hend : StartsHeader [] := trivial
  have hroot : update (addAll (headedDrafts entries)) [] plain =
      some (OrderedMap.ofList (ofEntries entries)).entries := hheaded
  have hbody := settle_body h hend rfl hvalues rfl rfl hroot
  rw [List.append_nil] at hbody
  exact hbody

end Classpath.Toml.Draft
