import IdleGame.Proofs.Store.Files

/-!
# Saving to a file that is interrupted

A slot is written in steps, and each of them can fail, or be the last one before all stops. What is
left of a step that does not come to its end is a part of what it does: some of the directories, or
the first bytes of a file. A file is moved or it is not.

Up to the moment when the new file is moved to its place, the slot is what it was; from then on it
holds what was written. All other slots keep what they hold at every moment.

## Main definitions

* `FileStep.CutOff` - what can be left of a step
* `FileStore.Stage` - how far the writing of a slot has come
* `FileStore.Writing` - a store in the course of writing a slot
* `FileStore.ReadsAsBefore` - a key reads as it did

## Main results

* `FileStore.writing_write` - writing a slot ends at one of its stages
* `FileStore.Writing.invariant` - what has become of the files at each stage
* `FileStore.writing_harmless` - writing a slot harms none, wherever it stops
-/

namespace IdleGame

open FilePath (isShort)

namespace FileStep

/-- What can be left of a step that fails or is cut off. -/
inductive CutOff (t : FileTree) : FileStep → FileTree → Prop
  | untouched {step : FileStep} : CutOff t step t
  | directories {path start : List String} (h : start <+: path) :
    CutOff t (.makeDirectories path) (t.makeDirectories start).2
  | part {path : List String} {content : ByteArray} {t' : FileTree} (n : Nat)
    (h : t.writeFile path (content.extract 0 n) = .ok t') : CutOff t (.writeFile path content) t'

variable {step : FileStep} {t t' : FileTree} {e : FileError}

/-- A step that fails by itself leaves no more than one that is cut off. -/
theorem cutOff_of_apply_error (h : step.apply t = (.error e, t')) : CutOff t step t' := by
  cases step with
  | makeDirectories path =>
    obtain rfl : (t.makeDirectories path).2 = t' := congrArg Prod.snd h
    exact .directories List.prefix_rfl
  | writeFile path content =>
    obtain ⟨-, rfl⟩ := FileStore.keep_error_iff.mp h
    exact .untouched
  | rename source target =>
    obtain ⟨-, rfl⟩ := FileStore.keep_error_iff.mp h
    exact .untouched

end FileStep

namespace FileStore

variable {path draft parent : List String} {name key : String} {content bytes : ByteArray}
  {t u u' v : FileTree} {s s' : FileStore} {step : FileStep} {rest : List FileStep}

/-- How far the writing of a slot has come. -/
inductive Stage where
  /-- These steps are still to be taken. -/
  | before (rest : List FileStep)
  /-- A step has failed or was cut off. -/
  | failed
  /-- Writing has come to its end. -/
  | returned (result : Except StoreError Unit)

/-- Whether the new file is in its place. -/
def Stage.isMoved : Stage → Bool
  | before rest => rest.isEmpty
  | failed => false
  | returned result => result.isOk

/-- Writing bytes under a key in the store `s` has come to a stage, and left a store. It can stop
for ever at any stage. -/
inductive Writing (s : FileStore) (key : String) (bytes : ByteArray) : Stage → FileStore → Prop
  | refused (h : path? key = none) : Writing s key bytes (.returned (.error (.invalidKey key))) s
  | begun {path draft : List String} (hpath : path? key = some path)
    (hdraft : draftPath? key = some draft) :
    Writing s key bytes (.before (steps path draft bytes)) s
  | taken {step : FileStep} {rest : List FileStep} {s' : FileStore} {u : FileTree}
    (h : Writing s key bytes (.before (step :: rest)) s')
    (hstep : step.apply s'.root = (.ok (), u)) : Writing s key bytes (.before rest) ⟨u⟩
  | cutOff {step : FileStep} {rest : List FileStep} {s' : FileStore} {u : FileTree}
    (h : Writing s key bytes (.before (step :: rest)) s')
    (hcut : FileStep.CutOff s'.root step u) : Writing s key bytes .failed ⟨u⟩
  /-- The unfinished file is removed, which may take any time. -/
  | discarded {draft : List String} {s' : FileStore} {u : FileTree}
    (h : Writing s key bytes .failed s')
    (hdraft : draftPath? key = some draft) (hremove : s'.root.removeFile draft = .ok u) :
    Writing s key bytes (.returned (.error .files)) ⟨u⟩
  /-- The unfinished file stays, or there is none. -/
  | leftBehind {s' : FileStore} (h : Writing s key bytes .failed s') :
    Writing s key bytes (.returned (.error .files)) s'
  | done {s' : FileStore} (h : Writing s key bytes (.before []) s') :
    Writing s key bytes (.returned (.ok ())) s'

/-! ### Writing that is not interrupted -/

/-- Taking all steps, or those up to one that fails, is a way that writing can go. -/
theorem writing_run (h : Writing s key bytes (.before rest) ⟨t⟩) :
    (∀ u, run rest t = (.ok (), u) → Writing s key bytes (.before []) ⟨u⟩) ∧
      ∀ e u, run rest t = (.error e, u) → Writing s key bytes .failed ⟨u⟩ := by
  induction rest generalizing t with
  | nil =>
    refine ⟨fun u hrun => ?_, fun e u hrun => ?_⟩
    · obtain rfl := (Prod.mk.inj hrun).2
      exact h
    · cases (Prod.mk.inj hrun).1
  | cons step rest ih =>
    rw [run]
    rcases happly : step.apply t with ⟨e | _, v⟩
    · refine ⟨fun u hrun => ?_, fun e' u hrun => ?_⟩
      · cases (Prod.mk.inj hrun).1
      · obtain rfl := (Prod.mk.inj hrun).2
        exact h.cutOff (FileStep.cutOff_of_apply_error happly)
    · exact ih (h.taken happly)

theorem writing_discard (h : Writing s key bytes .failed ⟨t⟩)
    (hdraft : draftPath? key = some draft) :
    Writing s key bytes (.returned (.error .files)) ⟨discard draft t⟩ := by
  rw [discard]
  rcases hremove : t.removeFile draft with e | u
  · exact h.leftBehind
  · exact h.discarded hdraft hremove

/-- Writing a slot ends at one of its stages. -/
theorem writing_write (s : FileStore) (key : String) (bytes : ByteArray) :
    Writing s key bytes (.returned (s.write key bytes).1) (s.write key bytes).2 := by
  rcases hpath : path? key with _ | path
  · rw [write_of_path?_eq_none hpath]
    exact .refused hpath
  · obtain ⟨parent, name, hfiled⟩ := exists_filed hpath
    have hdraft := hfiled.draftPath?
    have hbegun : Writing s key bytes (.before (steps path (parent ++ [draftName name]) bytes)) s :=
      .begun hpath hdraft
    obtain ⟨hok, herror⟩ := writing_run hbegun
    rw [write, hpath, hdraft]
    simp only [writeSlot]
    rcases hrun : run (steps path (parent ++ [draftName name]) bytes) s.root with ⟨e | _, u⟩
    · exact writing_discard (herror e u hrun) hdraft
    · exact (hok u hrun).done

/-! ### What becomes of the files -/

/-- The files after a slot has not been written: all are the same, but for the one under the other
name, and the slot is looked at as before. If a name in its path is too long, this may be found out
only now, in a directory that is new. -/
structure Kept (path draft : List String) (t u : FileTree) : Prop where
  files : FileTree.SameFiles [draft] t u
  look_eq : u.look path = t.look path ∨
    t.look path = .error .notFound ∧ u.look path = .error .tooLong ∧ ¬ ∀ name ∈ path, isShort name

/-- The files after a slot has been written: it holds what was to be written, and other files than
the two of writing it are the same. -/
structure Moved (path draft : List String) (content : ByteArray) (t u : FileTree) : Prop where
  files : FileTree.SameFiles [draft, path] t u
  check : FilePath.check path = .ok ()
  look_eq : u.look path = .ok (some content)

/-- The files when only some steps of writing a slot are left. -/
inductive Progress (path draft : List String) (content : ByteArray) (t : FileTree) :
    List FileStep → FileTree → Prop
  | begun {u : FileTree} (h : Kept path draft t u) :
    Progress path draft content t (steps path draft content) u
  | reached {u : FileTree} (h : Kept path draft t u) :
    Progress path draft content t [.writeFile draft content, .rename draft path] u
  | drafted {u : FileTree} (h : Kept path draft t u) (hdraft : u.look draft = .ok (some content)) :
    Progress path draft content t [.rename draft path] u
  | moved {u : FileTree} (h : Moved path draft content t u) : Progress path draft content t [] u

theorem Kept.refl (t : FileTree) : Kept path draft t t := ⟨.refl t, .inl rfl⟩

theorem Kept.trans (h : Kept path draft t u) (h' : Kept path draft u v) : Kept path draft t v := by
  refine ⟨h.files.trans h'.files, ?_⟩
  rcases h.look_eq with heq | ⟨hnone, hlong, hnames⟩
  · rw [← heq]
    exact h'.look_eq
  -- A name that has been found to be too long is never anything else.
  · rcases h'.look_eq with heq | ⟨hnone', -, -⟩
    · exact .inr ⟨hnone, heq.trans hlong, hnames⟩
    · rw [hlong] at hnone'
      cases hnone'

theorem kept_makeDirectories {start : List String} (h : ¬ path <+: start) :
    Kept path draft t (t.makeDirectories start).2 := by
  refine ⟨(FileTree.sameFiles_makeDirectories start t).mono (List.nil_subset _), ?_⟩
  rcases FileTree.look_makeDirectories start path t with
    heq | ⟨hnone, ⟨hwithin, -⟩ | ⟨hnames, hlong⟩⟩
  · exact .inl heq
  · exact absurd hwithin h
  · exact .inr ⟨hnone, hlong, hnames⟩

theorem kept_writeFile (hdraft : ¬ draft <+: path) (h : t.writeFile draft content = .ok u) :
    Kept path draft t u := by
  obtain ⟨-, -, -, -, hothers⟩ := FileTree.look_writeFile h
  exact ⟨FileTree.sameFiles_writeFile h, .inl (hothers path hdraft)⟩

theorem kept_removeFile (hdraft : ¬ draft <+: path) (h : t.removeFile draft = .ok u) :
    Kept path draft t u := by
  obtain ⟨-, -, hothers⟩ := FileTree.look_removeFile h
  exact ⟨FileTree.sameFiles_removeFile h, .inl (hothers path hdraft)⟩

theorem Kept.moved (hdraft : ¬ draft <+: path) (h : Kept path draft t u)
    (hcontent : u.look draft = .ok (some content)) (hmove : u.rename draft path = .ok u') :
    Moved path draft content t u' := by
  obtain ⟨content', hcontent', -, hmoved, -⟩ := FileTree.look_rename hmove hdraft
  rw [hcontent] at hcontent'
  obtain rfl := Option.some.inj (Except.ok.inj hcontent')
  obtain ⟨_, -, hwrite⟩ := Outcome.bind_eq_ok_iff.mp hmove
  obtain ⟨v, hwrite, -⟩ := Outcome.bind_eq_ok_iff.mp hwrite
  exact ⟨(h.files.mono (by simp)).trans (FileTree.sameFiles_rename hmove),
    (FileTree.look_writeFile hwrite).1, hmoved⟩

/-- Each step leads on. -/
theorem Progress.taken (hdraft : ¬ draft <+: path) (hpath : ¬ path <+: FileStore.parent path)
    (h : Progress path draft content t (step :: rest) u) (hstep : step.apply u = (.ok (), u')) :
    Progress path draft content t rest u' := by
  cases h with
  | begun h =>
    obtain rfl : (u.makeDirectories (FileStore.parent path)).2 = u' := congrArg Prod.snd hstep
    exact .reached (h.trans (kept_makeDirectories hpath))
  | reached h =>
    have hwrite := keep_ok_iff.mp hstep
    obtain ⟨-, -, -, hcontent, -⟩ := FileTree.look_writeFile hwrite
    exact .drafted (h.trans (kept_writeFile hdraft hwrite)) hcontent
  | drafted h hcontent => exact .moved (h.moved hdraft hcontent (keep_ok_iff.mp hstep))

/-- A step that is cut off leaves the slot as it was. -/
theorem Progress.cutOff (hdraft : ¬ draft <+: path) (hpath : ¬ path <+: FileStore.parent path)
    (h : Progress path draft content t (step :: rest) u) (hcut : FileStep.CutOff u step u') :
    Kept path draft t u' := by
  cases h with
  | begun h =>
    cases hcut with
    | untouched => exact h
    | directories hstart =>
      exact h.trans (kept_makeDirectories fun hwithin => hpath (hwithin.trans hstart))
  | reached h =>
    cases hcut with
    | untouched => exact h
    | part n hpart => exact h.trans (kept_writeFile hdraft hpart)
  | drafted h hcontent =>
    cases hcut with
    | untouched => exact h

/-- What has become of the files at each stage. -/
def Sound (path draft : List String) (content : ByteArray) (t : FileTree) :
    Stage → FileTree → Prop
  | .before rest, u => Progress path draft content t rest u
  | .failed, u => Kept path draft t u
  | .returned (.ok ()), u => Moved path draft content t u
  | .returned (.error _), u => Kept path draft t u

theorem Writing.invariant {stage : Stage} (h : Writing s key bytes stage s')
    (hfiled : Filed key parent name) :
    Sound (parent ++ [fileName name]) (parent ++ [draftName name]) bytes s.root stage s'.root := by
  have hdraft : ¬ parent ++ [draftName name] <+: parent ++ [fileName name] := draft_not_prefix
  have hpath : ¬ parent ++ [fileName name] <+: FileStore.parent (parent ++ [fileName name]) := by
    rw [FileStore.parent, List.dropLast_concat]
    exact not_concat_prefix
  induction h with
  | refused hnone => exact .refl _
  | begun hpath' hdraft' =>
    rw [hfiled.path?] at hpath'
    rw [hfiled.draftPath?] at hdraft'
    obtain rfl := Option.some.inj hpath'
    obtain rfl := Option.some.inj hdraft'
    exact .begun (.refl _)
  | taken h hstep ih => exact Progress.taken hdraft hpath ih hstep
  | cutOff h hcut ih => exact Progress.cutOff hdraft hpath ih hcut
  | discarded h hdraft' hremove ih =>
    rw [hfiled.draftPath?] at hdraft'
    obtain rfl := Option.some.inj hdraft'
    exact Kept.trans ih (kept_removeFile hdraft hremove)
  | leftBehind h ih => exact ih
  | done h ih =>
    cases ih with
    | moved h => exact h

/-! ### What a reader sees -/

/-- A key reads as it did. If it was absent it may be an error by now, when a name in its path is
too long for a file. -/
def ReadsAsBefore (key : String) (s s' : FileStore) : Prop :=
  s'.read key = s.read key ∨
    s.read key = .ok none ∧ s'.read key = .error .files ∧
      ∃ path, path? key = some path ∧ ∃ name ∈ path, ¬ isShort name

theorem Kept.readsAsBefore (hpath : path? key = some path) (h : Kept path draft s.root s'.root) :
    ReadsAsBefore key s s' := by
  rcases h.look_eq with heq | ⟨hnone, hlong, hnames⟩
  · exact .inl (read_congr hpath heq)
  · rcases hcheck : FilePath.check path with e | _
    · refine .inl ?_
      rw [read_of_path? hpath, read_of_path? hpath, FileTree.readFile_eq, FileTree.readFile_eq,
        hcheck]
      rfl
    · refine .inr ⟨read_of_look_error hpath hcheck hnone, read_of_look_error hpath hcheck hlong,
        path, hpath, ?_⟩
      simpa using hnames

/-- A slot whose file is the same holds the same. -/
theorem read_ok_some_iff_of_sameFiles {paths : List (List String)}
    (h : FileTree.SameFiles paths s.root s'.root)
    (hpaths : ∀ path, path? key = some path → path ∉ paths) :
    s'.read key = .ok (some content) ↔ s.read key = .ok (some content) := by
  rcases hpath : path? key with _ | path
  · rw [read_of_path?_eq_none hpath, read_of_path?_eq_none hpath]
  · rw [read_eq_ok_some_iff hpath, read_eq_ok_some_iff hpath, h path (hpaths path hpath)]

/-- The files of writing a slot are those of no other. -/
theorem Filed.path_not_mem {key' : String} (h : Filed key parent name) (hkey : key' ≠ key)
    (hpath : FileStore.path? key' = some path) :
    path ∉ [parent ++ [draftName name], parent ++ [fileName name]] := by
  obtain ⟨parent', name', h'⟩ := exists_filed hpath
  rw [h'.path?] at hpath
  obtain rfl := Option.some.inj hpath
  rw [List.mem_cons, List.mem_singleton, not_or]
  exact ⟨fun heq => append_draftName_ne heq.symm, fun heq => hkey (h'.key_eq_of_path_eq h heq)⟩

theorem Sound.kept {stage : Stage} (h : Sound path draft content t stage u)
    (hstage : ¬ stage.isMoved) : Kept path draft t u := by
  rcases stage with rest | _ | e | _
  · cases h with
    | begun h => exact h
    | reached h => exact h
    | drafted h => exact h
    | moved => exact absurd rfl hstage
  · exact h
  · exact h
  · exact absurd rfl hstage

theorem Sound.moved {stage : Stage} (h : Sound path draft content t stage u)
    (hstage : stage.isMoved) : Moved path draft content t u := by
  rcases stage with rest | _ | e | _
  · cases h with
    | moved h => exact h
    | begun => cases hstage
    | reached => cases hstage
    | drafted => cases hstage
  · cases hstage
  · cases hstage
  · exact h

theorem Sound.sameFiles {stage : Stage} (h : Sound path draft content t stage u) :
    FileTree.SameFiles [draft, path] t u := by
  by_cases hstage : stage.isMoved
  · exact (h.moved hstage).files
  · exact (h.kept hstage).files.mono (by simp)

/-- A key without a file is refused at once. -/
theorem Writing.eq_of_path?_eq_none {stage : Stage} (h : Writing s key bytes stage s')
    (hpath : path? key = none) : stage = .returned (.error (.invalidKey key)) ∧ s' = s := by
  induction h with
  | refused => exact ⟨rfl, rfl⟩
  | begun hpath' =>
    rw [hpath] at hpath'
    cases hpath'
  | taken _ _ ih => cases ih.1
  | cutOff _ _ ih => cases ih.1
  | discarded _ _ _ ih => cases ih.1
  | leftBehind _ ih => cases ih.1
  | done _ ih => cases ih.1

/-- Writing a slot harms none, wherever it stops: until the new file is in its place the slot reads
as before, from then on it holds what is written, and every other key holds what it held. -/
theorem writing_harmless (s : FileStore) (key : String) (bytes : ByteArray) :
    Writing s key bytes (.returned (s.write key bytes).1) (s.write key bytes).2 ∧
      ∀ stage s', Writing s key bytes stage s' →
        (stage.isMoved → s'.read key = .ok (some bytes)) ∧
        (¬ stage.isMoved → ReadsAsBefore key s s') ∧
        ∀ key', key' ≠ key →
          ∀ content, s'.read key' = .ok (some content) ↔ s.read key' = .ok (some content) := by
  refine ⟨writing_write s key bytes, fun stage s' h => ?_⟩
  rcases hpath : path? key with _ | path
  · obtain ⟨rfl, rfl⟩ := h.eq_of_path?_eq_none hpath
    exact ⟨nofun, fun _ => .inl rfl, fun _ _ _ => Iff.rfl⟩
  · obtain ⟨parent, name, hfiled⟩ := exists_filed hpath
    have hsound := h.invariant hfiled
    refine ⟨fun hmoved => ?_, fun hmoved => ?_, fun key' hkey content => ?_⟩
    · have hfile := hsound.moved hmoved
      exact (read_eq_ok_some_iff hfiled.path?).mpr ⟨hfile.check, hfile.look_eq⟩
    · exact (hsound.kept hmoved).readsAsBefore hfiled.path?
    · exact read_ok_some_iff_of_sameFiles hsound.sameFiles fun _ => hfiled.path_not_mem hkey

/-- All stops in the middle of writing a slot: the slot has its old bytes, and the first of the new
ones are left under the other name. -/
theorem writing_harmless_cut_short :
    (Writing ⟨.directory [("a.ron", .file ⟨#[1]⟩)]⟩ "a" ⟨#[2, 3]⟩ .failed
        ⟨.directory [("a.ron", .file ⟨#[1]⟩), ("a.ron.tmp", .file ⟨#[2]⟩)]⟩) ∧
      ReadsAsBefore "a" ⟨.directory [("a.ron", .file ⟨#[1]⟩)]⟩
        ⟨.directory [("a.ron", .file ⟨#[1]⟩), ("a.ron.tmp", .file ⟨#[2]⟩)]⟩ := by
  have h : Writing ⟨.directory [("a.ron", .file ⟨#[1]⟩)]⟩ "a" ⟨#[2, 3]⟩ .failed
      ⟨.directory [("a.ron", .file ⟨#[1]⟩), ("a.ron.tmp", .file ⟨#[2]⟩)]⟩ := by
    refine .cutOff (.taken (.begun rfl rfl) rfl) (.part 1 ?_)
    rfl
  exact ⟨h, ((writing_harmless _ _ _).2 _ _ h).2.1 nofun⟩

/-! ### Names that are too long -/

variable {above long : String}

theorem discard_of_look_error {e : FileError} (h : t.look path = .error e) :
    discard path t = t := by
  rw [discard]
  split
  · rename_i hremove
    obtain ⟨⟨content, hcontent⟩, -⟩ := FileTree.look_removeFile hremove
    rw [h] at hcontent
    cases hcontent
  · rfl

/-- A directory is made, and the one in it cannot be. -/
theorem makeDirectories_of_long (hcheck : FilePath.check [above, long] = .ok ())
    (habove : isShort above) (hlong : ¬ isShort long) :
    FileTree.makeDirectories [above, long] .empty =
      (.error .tooLong, .directory [(above, .empty)]) := by
  rw [FileTree.makeDirectories_eq hcheck, FileTree.empty, FileTree.extendPath_cons, if_pos habove,
    Entries.get?, Option.getD_none, FileTree.empty, FileTree.extendPath_cons, if_neg hlong]
  rfl

/-- A slot that was absent is an error after it could not be written: the directory in which a name
is too long is there now. -/
theorem read_after_write_of_long (hfiled : Filed key [above, long] name)
    (hparent : FilePath.check [above, long] = .ok ())
    (hcheck : FilePath.check ([above, long] ++ [fileName name]) = .ok ())
    (habove : isShort above) (hlong : ¬ isShort long) :
    FileStore.empty.read key = .ok none ∧ (FileStore.empty.write key bytes).1 = .error .files ∧
      (FileStore.empty.write key bytes).2.read key = .error .files := by
  have hlook (q : List String) :
      FileTree.look (above :: long :: q) (.directory [(above, .empty)]) = .error .tooLong := by
    rw [FileTree.look_of_get? habove (by rw [Entries.get?, if_pos rfl]), FileTree.look_empty,
      if_neg hlong]
  have hwrite : FileStore.empty.write key bytes =
      (.error .files, ⟨.directory [(above, .empty)]⟩) := by
    rw [write, hfiled.path?, hfiled.draftPath?]
    dsimp only [writeSlot, steps, run, FileStep.apply, FileStore.parent]
    rw [List.dropLast_concat, FileStore.empty, makeDirectories_of_long hparent habove hlong]
    dsimp only
    have hdraft : discard ([above, long] ++ [draftName name]) (.directory [(above, .empty)]) =
        .directory [(above, .empty)] := discard_of_look_error (hlook [draftName name])
    rw [hdraft]
  rw [hwrite]
  refine ⟨?_, rfl, read_of_look_error hfiled.path? hcheck (hlook _)⟩
  refine read_of_look_error hfiled.path? hcheck (e := .notFound) ?_
  exact FileTree.look_empty.trans (if_pos habove)

/-- A name of 256 letters. -/
def longName : List Char := List.replicate 256 'x'

/-- A key with a directory whose name is too long. -/
def longKey : String := String.ofList (['a', '/'] ++ longName ++ ['/', 'b'])

theorem filed_longKey : Filed longKey ["a", String.ofList longName] "b" := by
  refine ⟨[['a'], longName], ['b'], ?_, rfl, rfl⟩
  rw [pieces?_eq_some_iff, longKey, String.toList_ofList]
  decide +kernel

theorem check_longName {rest : List String} (hclean : FilePath.isClean rest)
    (hsize : FilePath.size ("a" :: String.ofList longName :: rest) ≤ FilePath.maxSize) :
    FilePath.check ("a" :: String.ofList longName :: rest) = .ok () := by
  have hname : '\x00' ∉ longName := by decide +kernel
  have hclean' : FilePath.isClean ("a" :: String.ofList longName :: rest) := by
    simpa [FilePath.isClean, hname] using hclean
  rw [FilePath.check, if_neg (by simpa using hclean'), if_neg (Nat.not_lt.mpr hsize)]

/-- An absent slot reads as an error after its writing has failed. -/
theorem read_longKey_after_write :
    FileStore.empty.read longKey = .ok none ∧
      (FileStore.empty.write longKey ⟨#[1]⟩).1 = .error .files ∧
      (FileStore.empty.write longKey ⟨#[1]⟩).2.read longKey = .error .files :=
  read_after_write_of_long filed_longKey (check_longName rfl (by decide +kernel))
    (check_longName (by decide +kernel) (by decide +kernel)) (by decide +kernel) (by decide +kernel)

end FileStore

end IdleGame
