import ViewTree.CommandLine.Run
import ViewTree.Proofs.Outcome

namespace ViewTree.CommandLine

theorem decode_eq_ok {content : ByteArray} {text : String} :
    decode content = .ok text ↔ content = text.toUTF8 := by
  unfold decode String.fromUTF8?
  split
  · rename_i found same
    split at same
    · cases same
      constructor
      · rintro ⟨⟩
        rfl
      · rintro rfl
        rfl
    · cases same
  · rename_i missing
    split at missing
    · cases missing
    · rename_i invalid
      refine ⟨nofun, ?_⟩
      rintro rfl
      exact absurd text.isValidUTF8 invalid

namespace Store

variable {File : Type} {store later : Store File} {path text : String}

theorem read_eq_ok : store.read path = .ok text ↔
    ∃ file, store.find .read path = .ok file ∧ store.content file = some text.toUTF8 := by
  rw [read, bind_eq_ok]
  refine exists_congr fun file => and_congr_right fun _ => ?_
  cases store.content file with
  | none => exact ⟨nofun, nofun⟩
  | some content => exact decode_eq_ok.trans ⟨congrArg some, Option.some.inj⟩

variable [DecidableEq File]

theorem write_eq_ok : store.write path text = .ok later ↔
    ∃ file, store.find (.write text.toUTF8) path = .ok file ∧ store.put file text.toUTF8 = later := by
  rw [write, bind_eq_ok]
  exact exists_congr fun file => and_congr_right fun _ => ⟨Except.ok.inj, congrArg _⟩

@[simp]
theorem content_put_self (store : Store File) (file : File) (content : ByteArray) :
    (store.put file content).content file = some content := if_pos rfl

theorem content_put_other (store : Store File) {file other : File} (differ : other ≠ file) (content : ByteArray) :
    (store.put file content).content other = store.content other := if_neg differ

end Store

section Answering

variable {files files' : Files}

theorem loadView_congr {template : String} (same : files' template = files template) (raw : Bool) :
    loadView files' template raw = loadView files template raw := by
  rw [loadView, loadView, same]

theorem loadData_congr {data : Option String} (same : ∀ path, data = some path → files' path = files path) :
    loadData files' data = loadData files data := by
  cases data with
  | none => rfl
  | some path => rw [loadData, loadData, same path rfl]

theorem page_congr {options : RenderOptions} (template : files' options.template = files options.template)
    (data : ∀ path, options.data = some path → files' path = files path) :
    page files' options = page files options := by
  simp only [page, loadView_congr template, loadData_congr data]

/-- What is done depends on no files but those that are read for it. -/
theorem answer_congr {arguments : List String} (same : ∀ path ∈ sources arguments, files' path = files path) :
    answer files' arguments = answer files arguments := by
  unfold answer
  unfold sources at same
  cases asked : Request.ofArguments arguments with
  | none => rfl
  | some request =>
    rw [asked] at same
    cases request with
    | version => rfl
    | help => rfl
    | perform verbose task =>
      cases task with
      | check options =>
        have template : files' options.template = files options.template := same _ (List.mem_singleton_self _)
        simp only [deliver, check, loadView_congr template]
      | render options =>
        have template : files' options.template = files options.template := same _ List.mem_cons_self
        have data (path : String) (given : options.data = some path) : files' path = files path :=
          same _ (List.mem_cons_of_mem _ (Option.mem_toList.2 given))
        simp only [deliver, render, page_congr template data]

end Answering

section Running

variable {σ τ : Type} {read : σ → Files} {write : σ → String → String → Except FileError σ}

theorem find?_map {f : Files} {path : String} {paths : List String} (member : path ∈ paths) :
    Entries.find? path (paths.map fun path => (path, f path)) = some (f path) := by
  induction paths with
  | nil => cases member
  | cons first paths ih =>
    rw [List.map_cons, Entries.find?]
    split
    · rename_i same
      rw [same]
    · rename_i differ
      exact ih (List.mem_of_ne_of_mem differ member)

@[simp]
theorem run_readState (start : σ) (path : String) :
    (readState read path).run start = pure (read start path, start) := rfl

@[simp]
theorem run_writeState (start : σ) (path content : String) : (writeState write path content).run start =
    pure (match write start path content with
      | .ok later => (.ok (), later)
      | .error error => (.error error, start)) := rfl

theorem run_mapM_readState (start : σ) (paths : List String) :
    (paths.mapM fun path => do
      let content ← readState read path
      pure (path, content)).run start = pure (paths.map fun path => (path, read start path), start) := by
  induction paths with
  | nil => rfl
  | cons path paths ih =>
    simp only [List.mapM_cons, StateT.run_bind, run_readState, StateT.run_pure, pure_bind, ih, List.map_cons]

/-- A run works out the answer to its arguments from the files as they are and then writes what is to be written. -/
theorem runOn_eq (start : σ) (arguments : List String) : runOn read write start arguments =
    match answer (read start) arguments with
    | .done report => (report, start)
    | .toFile path content report =>
      match write start path content with
      | .ok later => (report (.ok ()), later)
      | .error error => (report (.error error), start) := by
  let contents := (sources arguments).map fun path => (path, read start path)
  -- The answer looks up no path but those that were read before.
  have same : ∀ path ∈ sources arguments,
      (Entries.find? path contents).getD (.error .notFound) = read start path := by
    intro path member
    rw [find?_map member, Option.getD_some]
  rw [← answer_congr same, runOn, execute, StateT.run_bind, run_mapM_readState]
  change ((answer _ arguments).complete (writeState write)).run start = _
  cases answer (fun path => (Entries.find? path contents).getD (.error .notFound)) arguments with
  | done report => rfl
  | toFile path content report =>
    rw [Delivery.complete, StateT.run_bind, run_writeState, pure_bind]
    dsimp only
    cases write start path content <;> rfl

end Running

namespace Directory

variable (directory : Directory)

theorem find_store (access : Access) (path : String) :
    directory.store.find access path = nameOf directory.has access path := by
  simp only [Store.find, store, Option.isSome_map]
  rfl

theorem read_store : directory.store.read = directory.read := by
  funext path
  rw [Store.read, read, find_store]
  refine bind_congr fun name => ?_
  simp only [store]
  cases Entries.find? name directory.files with
  | none => rfl
  | some text => exact decode_eq_ok.2 rfl

theorem store_insert (name text : String) :
    store ⟨Entries.insert name text directory.files⟩ = directory.store.put name text.toUTF8 := by
  have content (other : String) : (Entries.find? other (Entries.insert name text directory.files)).map String.toUTF8 =
      if other = name then some text.toUTF8 else (Entries.find? other directory.files).map String.toUTF8 := by
    rw [Entries.find?_insert, apply_ite (Option.map String.toUTF8), Option.map_some]
  simp only [store, Store.put, content]

theorem write_store (path text : String) :
    directory.store.write path text = (directory.write path text).map store := by
  rw [Store.write, write, find_store]
  cases nameOf directory.has (.write text.toUTF8) path with
  | error error => rfl
  | ok name => exact congrArg Except.ok (directory.store_insert name text).symm

/-- A directory is run on as the store that it is. -/
theorem run_store (arguments : List String) :
    directory.store.run arguments = ((run directory arguments).1, (run directory arguments).2.store) := by
  rw [Store.run, run, runOn_eq, runOn_eq, read_store]
  cases answer directory.read arguments with
  | done report => rfl
  | toFile path text report =>
    dsimp only
    rw [write_store]
    cases directory.write path text <;> rfl

end Directory

end ViewTree.CommandLine
