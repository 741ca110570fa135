import DepBundle.Package.Metadata
import DepBundle.Proofs.Data.Ordered
/-!
# Packages — the bindings asked of one, put together

Bindings are what some requests come to (`Bindings.Gathers`): each name
asked for, or everything where that is asked for in one place. It does not
matter in which order requests come, nor how often the same one does
(`Gathers.congr`), nor in how many places (`Gathering.gathers`). The names
stand in the order in which they were first asked for
(`Bindings.ofList_eq_named`), and asking again moves none
(`Bindings.ofList_append_of_subset`). What is known of a package is all that
was put to it, one after another (`about_foldl`).

Bindings are kept as the list of their names, and the name for everything
stands for itself in it alone: no names that are asked for have it among them,
however they come together (`wildcard_notMem_iff`). So bindings are read back
from their list as they were, order and all (`ofList_toList`), also where they
are written down with the rest that is known of a package (`read?_written`).
Putting bindings together is what putting their lists together is, which is why
neither grouping nor repeating makes a difference, and order only to the order
of the names (`Gathering.lists`).
-/

namespace DepBundle.Package

namespace Bindings

variable {a b : Bindings} {l l' : List String} {name : String}

/-- Whether bindings are what some requests come to: everything where that
is asked for, and the names asked for otherwise. -/
def Gathers : Bindings → List String → Prop
  | all, l => wildcard ∈ l
  | named names, l => wildcard ∉ l ∧ ∀ name, name ∈ names ↔ name ∈ l

theorem gathers_none : none.Gathers [] :=
  ⟨List.not_mem_nil, fun _ => Iff.rfl⟩

theorem Gathers.eq_all (h : b.Gathers l) (hwild : wildcard ∈ l) : b = .all := by
  cases b with
  | all => rfl
  | named names => exact absurd hwild h.1

theorem Gathers.insert (h : b.Gathers l) : (b.insert name).Gathers (l ++ [name]) := by
  cases b with
  | all => exact List.mem_append_left _ h
  | named names =>
    obtain ⟨hwild, hnames⟩ := h
    rw [Bindings.insert]
    split_ifs with hname
    · subst hname
      exact List.mem_append_right _ (List.mem_singleton_self _)
    · refine ⟨fun hmem => ?_, fun other => ?_⟩
      · rcases List.mem_append.1 hmem with hmem | hmem
        · exact hwild hmem
        · exact hname (List.mem_singleton.1 hmem).symm
      · rw [OrderedSet.mem_insert, hnames, List.mem_append, List.mem_singleton, or_comm]

theorem Gathers.merge (ha : a.Gathers l) (hb : b.Gathers l') : (a.merge b).Gathers (l ++ l') := by
  cases b with
  | all => exact List.mem_append_right _ hb
  | named others =>
    cases a with
    | all => exact List.mem_append_left _ ha
    | named names =>
      refine ⟨fun hmem => ?_, fun name => ?_⟩
      · rcases List.mem_append.1 hmem with hmem | hmem
        · exact ha.1 hmem
        · exact hb.1 hmem
      · have hothers : name ∈ others.toList ↔ name ∈ l' := hb.2 name
        rw [OrderedSet.mem_insertMany, ha.2, List.mem_append, hothers, or_comm]

theorem Gathers.foldl (h : b.Gathers l) : (l'.foldl Bindings.insert b).Gathers (l ++ l') := by
  induction l' generalizing b l with
  | nil => simpa using h
  | cons name l' ih => simpa using ih h.insert

theorem Gathers.congr (h : b.Gathers l) (hl : ∀ name, name ∈ l ↔ name ∈ l') : b.Gathers l' := by
  cases b with
  | all => exact (hl _).1 h
  | named names => exact ⟨fun hwild => h.1 ((hl _).2 hwild), fun name => (h.2 name).trans (hl name)⟩

theorem gathers_ofList (l : List String) : (Bindings.ofList l).Gathers l :=
  gathers_none.foldl

/-- Everything is asked for where the name for everything is. -/
theorem Gathers.eq_all_iff (h : b.Gathers l) : b = .all ↔ wildcard ∈ l := by
  refine ⟨?_, h.eq_all⟩
  rintro rfl
  exact h

/-- Otherwise the names that are asked for are. -/
theorem Gathers.exists_named (h : b.Gathers l) (hwild : wildcard ∉ l) :
    ∃ names, b = .named names ∧ ∀ name, name ∈ names ↔ name ∈ l := by
  cases b with
  | all => exact absurd h hwild
  | named names => exact ⟨names, rfl, h.2⟩

/-- Where nothing is asked for, nothing is. -/
theorem Gathers.eq_none (h : b.Gathers l) (hnil : ∀ name, name ∉ l) : b = .none := by
  obtain ⟨names, rfl, hnames⟩ := h.exists_named (hnil wildcard)
  have hempty : names.toList = [] :=
    List.eq_nil_iff_forall_not_mem.2 fun name hname => hnil name ((hnames name).1 hname)
  exact congrArg Bindings.named (OrderedSet.ext_toList hempty)

/-- Bindings that come of the same requests list the same names. -/
theorem Gathers.mem_toList_iff (ha : a.Gathers l) (hb : b.Gathers l) :
    name ∈ a.toList ↔ name ∈ b.toList := by
  cases a with
  | all => rw [hb.eq_all ha]
  | named names =>
    obtain ⟨others, rfl, hothers⟩ := hb.exists_named ha.1
    exact (ha.2 name).trans (hothers name).symm

/-! ## The names in order -/

@[simp] theorem merge_none (b : Bindings) : b.merge none = b := by cases b <;> rfl

theorem merge_insert (b c : Bindings) (name : String) :
    b.merge (c.insert name) = (b.merge c).insert name := by
  cases c with
  | all => rfl
  | named names =>
    rw [insert]
    split_ifs with hname
    · cases b <;> simp [merge, insert, hname]
    · cases b with
      | all => rfl
      | named own =>
        have hboth : (merge (named own) (named names)).insert name =
            named ((own.insertMany names.toList).insert name) := if_neg hname
        rw [hboth, ← OrderedSet.insertMany_insert]
        rfl

/-- Names that were asked for are asked for one after another. -/
theorem merge_ofList (b : Bindings) (l : List String) : b.merge (ofList l) = l.foldl insert b := by
  have hfold : ∀ c : Bindings, b.merge (l.foldl insert c) = l.foldl insert (b.merge c) := by
    induction l with
    | nil => exact fun c => rfl
    | cons name l ih =>
      intro c
      rw [List.foldl_cons, ih, merge_insert, List.foldl_cons]
  rw [ofList, hfold, merge_none]

/-- What two lists ask for together is what they do as one. -/
theorem ofList_append (l l' : List String) : ofList (l ++ l') = (ofList l).merge (ofList l') := by
  rw [merge_ofList, ofList, List.foldl_append]
  rfl

theorem merge_merge_ofList (b : Bindings) (l l' : List String) :
    (b.merge (ofList l)).merge (ofList l') = b.merge (ofList (l ++ l')) := by
  simp only [merge_ofList, List.foldl_append]

theorem ofList_eq_all_iff : ofList l = .all ↔ wildcard ∈ l := (gathers_ofList l).eq_all_iff

theorem ofList_eq_named (h : wildcard ∉ l) : ofList l = .named (.ofList l) := by
  have hfold : ∀ names : OrderedSet String, l.foldl insert (.named names) =
      .named (names.insertMany l) := by
    induction l with
    | nil => exact fun names => rfl
    | cons name l ih =>
      intro names
      rw [List.mem_cons, not_or] at h
      have hnamed : (named names).insert name = .named (names.insert name) := if_neg (Ne.symm h.1)
      rw [List.foldl_cons, hnamed, ih h.2]
      rfl
  exact hfold .empty

/-- Asking again for what is asked for changes nothing. -/
theorem ofList_append_of_subset (h : ∀ name ∈ l', name ∈ l) : ofList (l ++ l') = ofList l := by
  by_cases hwild : wildcard ∈ l
  · rw [ofList_eq_all_iff.2 hwild, ofList_eq_all_iff.2 (List.mem_append_left _ hwild)]
  · have hwild' : wildcard ∉ l ++ l' := fun hmem =>
      (List.mem_append.1 hmem).elim hwild fun hmem => hwild (h _ hmem)
    rw [ofList_eq_named hwild, ofList_eq_named hwild', OrderedSet.ofList,
      OrderedSet.insertMany_append, OrderedSet.insertMany_eq_self]
    · rfl
    · exact fun name hname => OrderedSet.mem_ofList.2 (h name hname)

end Bindings

/-! ## How bindings come together -/

/-- How the bindings asked of one package come together. -/
inductive Gathering where
  /-- Some names, as one place lists them. -/
  | names (listed : List String)
  /-- One more name. -/
  | more (asked : Gathering) (name : String)
  /-- What two places ask for. -/
  | both (asked others : Gathering)
  /-- An `import()`, after which anything may be read. -/
  | later

namespace Gathering

/-- The names asked for, one after another; an `import()` counts as the
name for everything. -/
def requests : Gathering → List String
  | names listed => listed
  | more asked name => asked.requests ++ [name]
  | both asked others => asked.requests ++ others.requests
  | later => [wildcard]

/-- The bindings that come together. -/
def bindings : Gathering → Bindings
  | names listed => .ofList listed
  | more asked name => asked.bindings.insert name
  | both asked others => asked.bindings.merge others.bindings
  | later => .all

end Gathering

/-- **Nothing asked for is lost,** however it comes together. -/
theorem Gathering.gathers (asked : Gathering) : asked.bindings.Gathers asked.requests := by
  induction asked with
  | names listed => exact Bindings.gathers_none.foldl
  | more asked name ih => exact ih.insert
  | both asked others ih ih' => exact ih.merge ih'
  | later => exact List.mem_singleton_self _

/-! ## What is known of packages -/

variable {known : OrderedMap String Metadata} {m : Metadata} {x : String}

/-- What is known of a package. Of one that was never seen that is nothing. -/
def about (known : OrderedMap String Metadata) (x : String) : Metadata := (known.get? x).getD {}

theorem about_eq_of_get? (h : known.get? x = some m) : about known x = m := by
  rw [about, h, Option.getD_some]

theorem about_of_not_contains (h : ¬ known.contains x) : about known x = {} := by
  rw [OrderedMap.contains, Bool.not_eq_true, Option.isSome_eq_false_iff, Option.isNone_iff_eq_none]
    at h
  rw [about, h, Option.getD_none]

@[simp] theorem Metadata.merge_empty (m : Metadata) : m.merge {} = m := by
  obtain ⟨bindings, root, inWorkspace⟩ := m
  have hbindings : bindings.merge .none = bindings := Bindings.merge_none bindings
  simp [Metadata.merge, hbindings]

/-- **What is known of a package after some more was put to it** is what was,
with what was put to that package in order. -/
theorem about_foldl (known : OrderedMap String Metadata) (es : List (String × Metadata))
    (x : String) :
    about (es.foldl (fun known e => known.modify e.1 {} (·.merge e.2)) known) x =
      ((es.filter (·.1 = x)).map (·.2)).foldl Metadata.merge (about known x) := by
  induction es generalizing known with
  | nil => rfl
  | cons e es ih =>
    rw [List.foldl_cons, ih, about, OrderedMap.get?_modify]
    by_cases hx : x = e.1
    · rw [if_pos hx, List.filter_cons_of_pos (by simpa using hx.symm), Option.getD_some, hx]
      rfl
    · rw [if_neg hx, List.filter_cons_of_neg (by simpa using Ne.symm hx)]
      rfl

/-- What is known of packages after some more requests, one after another. -/
def learn (known : OrderedMap String Metadata) (requests : List (String × List String)) :
    OrderedMap String Metadata :=
  requests.foldl (fun known p => known.modify p.1 {} (·.merge { bindings := .ofList p.2 })) known

/-- Requests for a package tell of the bindings asked of it. -/
theorem about_learn (known : OrderedMap String Metadata) (requests : List (String × List String))
    (x : String) : about (learn known requests) x = (about known x).merge
      { bindings := .ofList ((requests.filter (·.1 = x)).flatMap (·.2)) } := by
  have hfold : ∀ (asked : List (List String)) (m : Metadata),
      (asked.map fun names => ({ bindings := .ofList names } : Metadata)).foldl Metadata.merge m =
        m.merge { bindings := .ofList asked.flatten } := by
    intro asked
    induction asked with
    | nil => exact fun m => m.merge_empty.symm
    | cons names asked ih =>
      intro m
      rw [List.map_cons, List.foldl_cons, ih, List.flatten_cons]
      simp [Metadata.merge, Bindings.merge_merge_ofList]
  have hlearn := about_foldl known (requests.map fun p => (p.1, { bindings := .ofList p.2 })) x
  rw [List.foldl_map, List.filter_map, List.map_map] at hlearn
  rw [learn, hlearn, List.flatMap_def, ← hfold, List.map_map]
  rfl

theorem contains_learn (requests : List (String × List String)) (x : String) :
    (learn known requests).contains x ↔ known.contains x ∨ ∃ p ∈ requests, p.1 = x := by
  refine foldl_iff (P := fun known : OrderedMap String Metadata => known.contains x)
    (fun known p => ?_) requests known
  rw [OrderedMap.contains_modify, or_comm, eq_comm (a := x)]

/-! ## Bindings as a list -/

namespace Bindings

variable {b : Bindings} {l l' : List String}

/-- The name for everything asks for nothing else. -/
theorem Gathers.wildcard_notMem (h : b.Gathers l) {names : OrderedSet String}
    (hb : b = .named names) : wildcard ∉ names := by
  subst hb
  exact fun hmem => h.1 ((h.2 wildcard).1 hmem)

/-- **Bindings are read back from their list** as they were, where the name for
everything is none of theirs. -/
theorem ofList_toList (h : ∀ names, b = .named names → wildcard ∉ names) :
    ofList b.toList = b := by
  cases b with
  | all => rfl
  | named names =>
    have hwild : wildcard ∉ names.toList := h names rfl
    rw [toList, ofList_eq_named hwild, OrderedSet.ofList_toList]

/-- **Names come together without the name for everything,** and all others do. -/
theorem wildcard_notMem_iff : (∀ names, b = .named names → wildcard ∉ names) ↔
    ∃ asked : Gathering, asked.bindings = b := by
  constructor
  · intro h
    exact ⟨.names b.toList, ofList_toList h⟩
  · rintro ⟨asked, rfl⟩ names
    exact asked.gathers.wildcard_notMem

theorem nodup_toList (b : Bindings) : b.toList.Nodup := by
  cases b with
  | all => exact List.nodup_cons.2 ⟨List.not_mem_nil, List.nodup_nil⟩
  | named names => exact names.nodup

/-- Only everything is listed as the name for everything. -/
theorem toList_eq_wildcard_iff (h : ∀ names, b = .named names → wildcard ∉ names) :
    b.toList = [wildcard] ↔ b = .all := by
  constructor
  · intro hlist
    rw [← ofList_toList h, hlist]
    rfl
  · rintro rfl
    rfl

/-- Bindings of the same requests have the same names, perhaps in another order. -/
theorem Gathers.perm {c : Bindings} (hb : b.Gathers l) (hc : c.Gathers l) :
    b.isAll = c.isAll ∧ b.toList.Perm c.toList := by
  refine ⟨?_, (List.perm_ext_iff_of_nodup b.nodup_toList c.nodup_toList).2 fun name =>
    hb.mem_toList_iff hc⟩
  by_cases hwild : wildcard ∈ l
  · rw [hb.eq_all hwild, hc.eq_all hwild]
  · obtain ⟨names, rfl, -⟩ := hb.exists_named hwild
    obtain ⟨others, rfl, -⟩ := hc.exists_named hwild
    rfl

/-- Grouping makes no difference to what two lists add. -/
theorem merge_assoc_ofList (b : Bindings) (l l' : List String) :
    (b.merge (ofList l)).merge (ofList l') = b.merge ((ofList l).merge (ofList l')) := by
  rw [merge_merge_ofList, ofList_append]

end Bindings

/-! ## Written down -/

/-- What is known of a package, written down: the bindings as their list. -/
def Metadata.written (m : Metadata) : Json :=
  .object [(some "exports", .array (m.bindings.toList.map fun name => .string (some name))),
    (some "rootPath", (m.root.map fun root => Json.string (some root.text)).getD .null),
    (some "isWorkspace", .bool m.inWorkspace)]

theorem readList_names (l : List String) :
    Json.readList Json.readString (.array (l.map fun name => .string (some name))) = some l := by
  rw [Json.readList, List.mapM_map]
  exact (List.mapM_pure (m := Option) (f := id)).trans (by rw [List.map_id]; rfl)

/-- **What is written down of a package is read back,** where the name for
everything is none of the names. -/
theorem read?_written {m : Metadata}
    (h : ∀ names, m.bindings = .named names → wildcard ∉ names) :
    Metadata.read? m.written = some m := by
  obtain ⟨bindings, root, inWorkspace⟩ := m
  have hfields : Json.readFields ["exports", "rootPath", "isWorkspace"] false
      (Metadata.written ⟨bindings, root, inWorkspace⟩) =
        some [some (.array (bindings.toList.map fun name => .string (some name))),
          some ((root.map fun root => Json.string (some root.text)).getD .null),
          some (.bool inWorkspace)] := rfl
  have hroot : Json.readOptional (fun v => (Json.readString v).map Path.mk)
      ((root.map fun root => Json.string (some root.text)).getD .null) = some root := by
    cases root <;> rfl
  rw [Metadata.read?, hfields]
  simp only [Option.bind_eq_bind, Option.bind_some, Json.field, readList_names, hroot,
    Json.readBool, Bindings.ofList_toList h]
  rfl

/-- Bindings that are read come together from the names that are listed. -/
theorem exists_gathering_of_read? {v : Json} {m : Metadata} (h : Metadata.read? v = some m) :
    ∃ asked : Gathering, asked.bindings = m.bindings := by
  rw [Metadata.read?] at h
  obtain ⟨fields, -, h⟩ := Option.bind_eq_some_iff.1 h
  split at h
  · obtain ⟨names, -, h⟩ := Option.bind_eq_some_iff.1 h
    obtain ⟨root, -, h⟩ := Option.bind_eq_some_iff.1 h
    obtain ⟨inWorkspace, -, h⟩ := Option.bind_eq_some_iff.1 h
    cases h
    exact ⟨.names names, rfl⟩
  · cases h

/-! ## However bindings come together -/

/-- **What bindings that come together are to their lists and to each other.** -/
structure Lists (asked others more : Gathering) : Prop where
  /-- The name for everything is none of the names. -/
  wildcard_notMem : ∀ names, asked.bindings = .named names → wildcard ∉ names
  /-- Bindings are read back from their list, in the same order. -/
  ofList_toList : Bindings.ofList asked.bindings.toList = asked.bindings
  /-- Everything is listed by its name, and nothing else is listed so. -/
  toList_eq_iff : asked.bindings.toList = [wildcard] ↔ asked.bindings = .all
  /-- What is known of a package is read back as it was written down, -/
  read? : ∀ root inWorkspace,
    Metadata.read? (Metadata.written ⟨asked.bindings, root, inWorkspace⟩) =
      some ⟨asked.bindings, root, inWorkspace⟩
  /-- and whatever is read are bindings that come together. -/
  reads : ∀ v m, Metadata.read? v = some m → ∃ listed : Gathering, listed.bindings = m.bindings
  /-- Lists that are put together ask for what each of them does. -/
  append : ∀ l l', Bindings.ofList (l ++ l') = (Bindings.ofList l).merge (.ofList l')
  /-- Grouping makes no difference, -/
  assoc : (asked.bindings.merge others.bindings).merge more.bindings =
    asked.bindings.merge (others.bindings.merge more.bindings)
  /-- nor does repeating, -/
  idem : asked.bindings.merge asked.bindings = asked.bindings
  /-- and order only to the order of the names. -/
  comm : (asked.bindings.merge others.bindings).isAll =
      (others.bindings.merge asked.bindings).isAll ∧
    (asked.bindings.merge others.bindings).toList.Perm
      (others.bindings.merge asked.bindings).toList

/-- **Bindings hide nothing:** however they come together, they are what their
list is, and putting them together is putting lists together. -/
theorem Gathering.lists (asked others more : Gathering) : Lists asked others more := by
  have hwild : ∀ asked : Gathering, ∀ names, asked.bindings = .named names → wildcard ∉ names :=
    fun asked => Bindings.wildcard_notMem_iff.2 ⟨asked, rfl⟩
  have hlist : ∀ asked : Gathering, Bindings.ofList asked.bindings.toList = asked.bindings :=
    fun asked => Bindings.ofList_toList (hwild asked)
  refine ⟨hwild asked, hlist asked, Bindings.toList_eq_wildcard_iff (hwild asked),
    fun root inWorkspace => read?_written (hwild asked), fun v m => exists_gathering_of_read?,
    Bindings.ofList_append, ?_, ?_, ?_⟩
  · rw [← hlist others, ← hlist more]
    exact Bindings.merge_assoc_ofList _ _ _
  · have hself := Bindings.ofList_append_of_subset (l := asked.bindings.toList)
      fun name hname => hname
    rwa [Bindings.ofList_append, hlist] at hself
  · have hboth := asked.gathers.merge others.gathers
    have hother := others.gathers.merge asked.gathers
    refine hboth.perm (hother.congr fun name => ?_)
    rw [List.mem_append, List.mem_append, or_comm]

/-- The order in which names are asked for is kept, by what asks first. -/
example : (((Bindings.ofList ["b", "a"]).merge (.ofList ["a", "c"])).toList,
    ((Bindings.ofList ["a", "c"]).merge (.ofList ["b", "a"])).toList) =
      (["b", "a", "c"], ["a", "c", "b"]) := by decide

end DepBundle.Package
