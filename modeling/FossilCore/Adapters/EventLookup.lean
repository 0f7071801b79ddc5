import FossilCore.Adapters.EventStore

/-!
# Lookup of an event by any text

`DurableEventStore.get` for the text that a caller of `CorpusService.read` passes.  `pathlib` joins
the root of the store with parts of that text, and a part can hold separators and dot segments, so
the path is looked up in the whole file tree and not below the root alone.
-/

namespace FossilCore

open Base

/-! ## Paths -/

/-- The components of a relative path; empty parts and single dots are left out. -/
def components (segment : String) : List String :=
  ((segment.toList.splitOnP (· = '/')).map String.ofList).filter fun c => c ≠ "" ∧ c ≠ "."

/-- `directory / segment`: an absolute segment replaces what is in front of it. -/
def joinPath (directory : List String) (segment : String) : List String :=
  if Text.startsWith segment "/" then components segment else directory ++ components segment

/-- A component that names an entry of the directory in front of it. -/
def IsEntry (c : String) : Prop := c ≠ "" ∧ c ≠ "." ∧ c ≠ ".." ∧ '/' ∉ c.toList

instance (c : String) : Decidable (IsEntry c) := inferInstanceAs (Decidable (_ ∧ _ ∧ _ ∧ _))

/-! ## The file tree -/

inductive TreeNode where
  | file (data : ByteArray)
  | directory
  | absent
  /-- The operating system refuses access. -/
  | refused

/-- What the operating system finds at an absolute path.  How it resolves `..` and symbolic links is
left open. -/
abbrev FileTree := List String → TreeNode

/-- The node at a path below the root of a store, where the store has these files. -/
def storeNode (files : Files) (path : Path) : TreeNode :=
  match files[path]? with
  | some data => .file data
  | none =>
      if path = [] ∨ path = DurableEventStore.redactions ∨ ∃ key ∈ files.keys, path <+: key then
        .directory
      else .absent

/-- The directory `root` of the tree holds the files of a store and nothing else. -/
def HoldsStore (tree : FileTree) (root : List String) (files : Files) : Prop :=
  ∀ path : Path, (∀ c ∈ path, IsEntry c) → tree (root ++ path) = storeNode files path

namespace FileTree

/-- `path.exists()` -/
def isPresent (tree : FileTree) (path : List String) : Except PyException Bool :=
  match tree path with
  | .file _ | .directory => .ok true
  | .absent => .ok false
  | .refused => .error .osError

/-- `path.read_text(encoding="utf-8")`, up to its decoding -/
def read (tree : FileTree) (path : List String) : Except PyException ByteArray :=
  match tree path with
  | .file data => .ok data
  | .directory | .refused => .error .osError
  | .absent => .error (.fileNotFoundError (pathText path))

end FileTree

/-! ## The lookup -/

namespace DurableEventStore

/-- `_event_path`, in the whole tree -/
def eventPathAt (root : List String) (event_id : String) : List String :=
  joinPath (joinPath root (shardOf "evt_" event_id)) (fileName event_id)

/-- `_redaction_path`, in the whole tree -/
def redactionPathAt (root : List String) (event_id : String) : List String :=
  joinPath (joinPath (root ++ redactions) (shardOf "evt_" event_id)) (fileName event_id)

/-- `get` -/
def getAt (tree : FileTree) (root : List String) (event_id : String) : Except Error Json := do
  let redacted ← liftPy (tree.isPresent (redactionPathAt root event_id))
  if redacted then .error (.redactedGet event_id)
  else
    let data ← liftPy (tree.read (eventPathAt root event_id))
    liftPy (Json.loadText data)

/-- The lookup fails or returns the event that was committed under exactly this text. -/
def Confined (l : Ledger) (event_id : String) (result : Except Error Json) : Prop :=
  (∃ e, result = .error e) ∨ ∃ event, result = .ok event ∧ l.events[event_id]? = some event

/-- The text is one component, and so are the two characters of its shard. -/
def PlainId (event_id : String) : Prop :=
  '/' ∉ event_id.toList ∧ shardOf "evt_" event_id ≠ ".."

instance (event_id : String) : Decidable (PlainId event_id) := inferInstanceAs (Decidable (_ ∧ _))

/-- The text leads to a file with a JSON value, and to nothing among the redactions. -/
def LeadsToValue (tree : FileTree) (root : List String) (event_id : String) : Prop :=
  tree (redactionPathAt root event_id) = .absent ∧
    ∃ data value, tree (eventPathAt root event_id) = .file data ∧ Json.loadText data = .ok value

/-! ## What a text leads to -/

theorem components_of_no_slash {s : String} (h : '/' ∉ s.toList) :
    components s = if s = "" ∨ s = "." then [] else [s] := by
  have hsplit : s.toList.splitOnP (· = '/') = [s.toList] :=
    List.splitOnP_eq_singleton fun c hc => decide_eq_false fun heq => h (heq ▸ hc)
  rw [components, hsplit, List.map_singleton, String.ofList_toList]
  by_cases hs : s = "" ∨ s = "."
  · rw [if_pos hs, List.filter_cons_of_neg, List.filter_nil]
    intro hne
    obtain ⟨hempty, hdot⟩ := of_decide_eq_true hne
    exact hs.elim hempty hdot
  · rw [if_neg hs, List.filter_cons_of_pos, List.filter_nil]
    exact decide_eq_true (not_or.mp hs)

theorem joinPath_of_no_slash {s : String} (h : '/' ∉ s.toList) (directory : List String) :
    joinPath directory s = directory ++ components s := by
  refine if_neg fun hstart => h ?_
  obtain ⟨rest, hrest⟩ := Text.startsWith_iff.mp hstart
  rw [hrest]
  exact List.mem_append_left _ (by decide)

theorem mem_of_mem_shardOf {event_id : String} {c : Char}
    (h : c ∈ (shardOf "evt_" event_id).toList) : c ∈ event_id.toList := by
  rw [shardOf, Text.toList_take] at h
  have hcut := List.mem_of_mem_take h
  rw [Text.removePrefix] at hcut
  split at hcut
  · rw [Text.toList_drop] at hcut
    exact List.mem_of_mem_drop hcut
  · exact hcut

theorem fileName_ne (event_id : String) :
    fileName event_id ≠ "" ∧ fileName event_id ≠ "." ∧ fileName event_id ≠ ".." := by
  have hlen : 5 ≤ (fileName event_id).toList.length := by
    rw [fileName, String.toList_append, List.length_append]
    exact Nat.le_add_left _ _
  refine ⟨?_, ?_, ?_⟩ <;>
  · intro heq
    rw [heq] at hlen
    revert hlen
    decide

theorem isEntry_fileName {event_id : String} (h : PlainId event_id) :
    IsEntry (fileName event_id) := by
  obtain ⟨hempty, hdot, hdots⟩ := fileName_ne event_id
  refine ⟨hempty, hdot, hdots, ?_⟩
  rw [fileName, String.toList_append, List.mem_append, not_or]
  exact ⟨h.1, by decide⟩

/-- The path below the directory is the file name, perhaps behind the shard. -/
theorem joinPath_plain {event_id : String} (h : PlainId event_id) (directory : List String) :
    ∃ path : Path, (∀ c ∈ path, IsEntry c) ∧
      (path = [fileName event_id] ∨ path = [shardOf "evt_" event_id, fileName event_id]) ∧
      joinPath (joinPath directory (shardOf "evt_" event_id)) (fileName event_id) =
        directory ++ path := by
  have hshard : '/' ∉ (shardOf "evt_" event_id).toList := fun hmem => h.1 (mem_of_mem_shardOf hmem)
  have hname := isEntry_fileName h
  have hcomponents : components (fileName event_id) = [fileName event_id] := by
    rw [components_of_no_slash hname.2.2.2, if_neg (not_or.mpr ⟨hname.1, hname.2.1⟩)]
  rw [joinPath_of_no_slash hshard, joinPath_of_no_slash hname.2.2.2, hcomponents,
    components_of_no_slash hshard]
  split
  · refine ⟨[fileName event_id], ?_, Or.inl rfl, by rw [List.append_nil]⟩
    intro c hc
    rw [List.mem_singleton.mp hc]
    exact hname
  · next hne =>
      rw [not_or] at hne
      refine ⟨[shardOf "evt_" event_id, fileName event_id], ?_, Or.inr rfl,
        by rw [List.append_assoc]; rfl⟩
      intro c hc
      rcases List.mem_pair.mp hc with rfl | rfl
      · exact ⟨hne.1, hne.2, h.2, hshard⟩
      · exact hname

theorem plainId_of_stableId (id : EventId) : PlainId id.text := by
  obtain ⟨body, tail, htext, hlen, hall, htail⟩ := Schema.isPrefixedId_iff.mp id.ok
  have hchar : ∀ c ∈ body, c ≠ '/' ∧ c ≠ '.' := by
    intro c hc
    have hword := hall c hc
    refine ⟨?_, ?_⟩ <;>
    · rintro rfl
      revert hword
      decide
  refine ⟨?_, ?_⟩
  · rw [htext, List.mem_append, List.mem_append, not_or, not_or]
    refine ⟨by decide, fun hmem => (hchar _ hmem).1 rfl, ?_⟩
    rcases htail with rfl | rfl <;> decide
  · intro heq
    obtain ⟨a, b, rest, -, hshard, ha, -⟩ := id.shard_eq
    rw [StableId.shard, heq] at hshard
    obtain ⟨rfl, -⟩ := List.cons.inj hshard
    revert ha
    decide

/-! ## Confinement -/

section Confinement

variable {config : StoreConfig} {l : Ledger} {files : Files} {tree : FileTree} {root : List String}
  {event_id : String}

theorem read_eq_ok {path : List String} {data : ByteArray} :
    tree.read path = .ok data ↔ tree path = .file data := by
  rw [FileTree.read]
  split <;> simp_all

/-- A file that lies where a plain text leads is the file of an event with that text for its id. -/
theorem event_of_file (h : (Ledger.model config).StoredAs layout l files)
    (htree : HoldsStore tree root files) (hplain : PlainId event_id) {data : ByteArray}
    (hfile : tree (eventPathAt root event_id) = .file data) :
    ∃ event, l.events[event_id]? = some event ∧ Json.loadText data = .ok event := by
  obtain ⟨path, hentries, hpath, hjoin⟩ := joinPath_plain hplain root
  rw [eventPathAt, hjoin, htree path hentries, storeNode] at hfile
  split at hfile
  · next found hfound =>
      cases hfile
      obtain ⟨slot, hslot⟩ := h.holds.only path data hfound
      cases slot with
      | tombstone id =>
          have hlength : path.length = 3 := (congrArg List.length hslot).symm
          rcases hpath with rfl | rfl <;> simp at hlength
      | event id =>
          have hname : fileName id.text = fileName event_id := by
            have hlength : path.length = 2 := (congrArg List.length hslot).symm
            rcases hpath with rfl | rfl
            · simp at hlength
            · exact (List.cons.inj (List.cons.inj hslot).2).1
          obtain rfl := StableId.fileName_inj hname
          have hstored : files[event_path id.text]? = some data := by
            rw [← hfound]
            exact congrArg (files[·]?) hslot
          rw [get?_event h] at hstored
          obtain ⟨event, hevent, rfl⟩ := Option.map_eq_some_iff.mp hstored
          obtain ⟨id', -, hvalid⟩ := h.valid.events _ _ hevent
          exact ⟨event, hevent, Json.loadText_canonical hvalid.wf⟩
  · split at hfile <;> cases hfile

theorem getAt_eq_ok {value : Json} :
    getAt tree root event_id = .ok value ↔
      tree (redactionPathAt root event_id) = .absent ∧
        ∃ data, tree (eventPathAt root event_id) = .file data ∧ Json.loadText data = .ok value := by
  rw [getAt]
  constructor
  · intro h
    obtain ⟨redacted, hredacted, h⟩ := bind_eq_ok.mp h
    cases redacted with
    | true => cases h
    | false =>
        obtain ⟨data, hdata, hvalue⟩ := bind_eq_ok.mp h
        refine ⟨?_, data, read_eq_ok.mp (liftPy_eq_ok.mp hdata), liftPy_eq_ok.mp hvalue⟩
        have hpresent := liftPy_eq_ok.mp hredacted
        rw [FileTree.isPresent] at hpresent
        split at hpresent
        · cases hpresent
        · cases hpresent
        · assumption
        · cases hpresent
  · rintro ⟨habsent, data, hfile, hvalue⟩
    refine bind_eq_ok.mpr ⟨false, ?_, bind_eq_ok.mpr ⟨data, ?_, liftPy_eq_ok.mpr hvalue⟩⟩
    · rw [FileTree.isPresent, habsent]
      rfl
    · rw [read_eq_ok.mpr hfile]
      rfl

end Confinement

/-! ## A text that leaves the store -/

/-- The components of a path in a tree without symbolic links. -/
def resolved (path : List String) : List String :=
  path.foldl (fun here c => if c = ".." then here.dropLast else here ++ [c]) []

theorem resolved_append {path : List String} (directory : List String)
    (h : ∀ c ∈ path, c ≠ "..") : resolved (directory ++ path) = resolved directory ++ path := by
  induction path using List.reverseRecOn with
  | nil => simp
  | append_singleton path c ih =>
      have hc : c ≠ ".." := h c (by simp)
      have hpath := ih fun c hc => h c (List.mem_append_left _ hc)
      rw [resolved, ← List.append_assoc, List.foldl_concat, if_neg hc, ← List.append_assoc, ← hpath]
      rfl

/-- An empty store in `/srv/store`, and a file outside of it. -/
def sampleTree : FileTree := fun path =>
  if resolved path ∈ [[], ["srv"], ["srv", "store"], ["srv", "store", "_redactions"]] then .directory
  else if resolved path = ["secret.json"] then .file (Json.str "secret").canonical
  else .absent

theorem holdsStore_sampleTree : HoldsStore sampleTree ["srv", "store"] ∅ := by
  intro path hpath
  have hresolved : resolved (["srv", "store"] ++ path) = ["srv", "store"] ++ path :=
    resolved_append ["srv", "store"] fun c hc => (hpath c hc).2.2.1
  have hempty : (∅ : Files)[path]? = none := Std.ExtTreeMap.getElem?_empty
  have hkeys : ¬ ∃ key ∈ (∅ : Files).keys, path <+: key := by
    simp
  rw [storeNode, hempty, sampleTree, hresolved]
  simp only [hkeys, or_false]
  match path with
  | [] => rfl
  | [c] =>
      by_cases hc : c = "_redactions"
      · subst hc
        rfl
      · simp [redactions, hc]
  | _ :: _ :: _ => simp [redactions]

end DurableEventStore

end FossilCore
