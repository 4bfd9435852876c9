import FlowIpc.MqPeers.Names
import Mathlib.Data.List.Infix
import Mathlib.Data.List.Nodup

/-!
# Removing every persistent object of a kind

What persists of queues and pools are files of two directories, `/dev/mqueue` and `/dev/shm`.
`remove_each_persistent_if()` goes through the names that `for_each_persistent()` lists, which are those of the
regular files of one of them, and removes each that passes a filter; what cannot be removed is left, and not
counted. Of the objects that can be removed so, a POSIX queue is one file, a bipc one is one, and the
blob stream over a POSIX queue three: its own and its two sentinels (`PersistentObject.paths`).

**Result** (`removesEach`). Whatever files there are, whatever the system refuses, and for every prefix:
* what is gone are the files of the objects listed under a name that begins so, but for those refused;
  nothing else is touched;
* counted are the objects all of whose files were there and could be removed;
* if nothing is refused, and whatever is left under such a name belongs to an object that is listed, then nothing
  is left;
* the assertion that is made of a queue's name to find its sentinels, that it is absolute, fails exactly if a name
  that is listed and begins so is not. What is said above is then that of a build without assertions.

No object's removal is in the way of another's, since no two of a kind share a file
(`PersistentObject.paths_disjoint`).

Source: `shared_name.hpp` `remove_each_persistent_if`, `remove_each_persistent_with_name_prefix`; `util.hpp`
`for_each_persistent_impl`.
-/

namespace FlowIpc.RemoveEach

open MqPeers

/-! ## Files -/

/-- Where persistent objects show. -/
inductive DevDir where
  /-- `/dev/mqueue` -/
  | mqueue
  /-- `/dev/shm` -/
  | shm
  deriving DecidableEq

/-- The place of a file. -/
abbrev Path := DevDir × SharedName

/-- A file. -/
structure Entry where
  /-- Its directory and name. -/
  path : Path
  /-- `fs::is_regular_file()` of its status, which could be determined. -/
  isRegularFile : Bool
  deriving DecidableEq

/-- The files of both directories, no two of which are in the same place. -/
structure Files where
  /-- The files, in the order in which directories list them. -/
  entries : List Entry
  nodup : (entries.map Entry.path).Nodup

/-- What the system does of its own. -/
structure System where
  /-- The directory can be listed. -/
  opens : DevDir → Bool
  /-- Why it refuses to unlink a file, if it does. -/
  refuses : Path → Option Nat

namespace Files

/-- There is a file there. -/
def Has (fs : Files) (p : Path) : Prop :=
  p ∈ fs.entries.map Entry.path

instance (fs : Files) (p : Path) : Decidable (fs.Has p) :=
  inferInstanceAs (Decidable (_ ∈ _))

/-- The files that `keep` keeps. -/
def filter (fs : Files) (keep : Entry → Bool) : Files where
  entries := fs.entries.filter keep
  nodup := (List.filter_sublist.map Entry.path).nodup fs.nodup

/-- Two states of the directories with the same files are the same. -/
theorem ext {fs fs' : Files} (h : fs.entries = fs'.entries) : fs = fs' := by
  cases fs
  cases fs'
  cases h
  rfl

/-- `unlink()`, or `mq_unlink()`: what it comes to, and what is left. -/
def unlink (fs : Files) (sys : System) (p : Path) : ErrorCode × Files :=
  match sys.refuses p with
  | some errno => (some (.system errno), fs)
  | none => (if fs.Has p then none else some (.system enoent), fs.filter (·.path ≠ p))

end Files

/-- The names that are passed to the handler; none if the directory cannot be listed.
Source: `util.hpp` `for_each_persistent_impl` -/
def forEachPersistentImpl (sys : System) (fs : Files) (dir : DevDir) : List SharedName :=
  if sys.opens dir then (fs.entries.filter fun e => e.path.1 = dir ∧ e.isRegularFile).map (·.path.2) else []

/-! ## Persistent objects -/

/-- The types of persistent objects whose removal deletes no other file of the directory that is listed. (That of
a blob stream over a bipc queue does, so that it may or may not come to be listed.) -/
inductive PersistentObject where
  /-- `Posix_mq_handle` -/
  | posixMqHandle
  /-- `Bipc_mq_handle` -/
  | bipcMqHandle
  /-- `Blob_stream_mq_base<Posix_mq_handle>` -/
  | blobStreamMq
  deriving DecidableEq

/-- Where the sentinel of that direction shows, of the POSIX queue of that name. -/
def sentinelPath (name : SharedName) (sndElseRcv : Bool) : Path :=
  (.shm, mqSentinelName ⟨"posixQ".toList, name⟩ sndElseRcv)

namespace PersistentObject

/-- Where objects of the type are listed.
Source: `posix_mq_handle.hpp`, `bipc_mq_handle.hpp`, `blob_stream_mq_impl.hpp` `for_each_persistent` -/
def dir : PersistentObject → DevDir
  | posixMqHandle => .mqueue
  | bipcMqHandle => .shm
  | blobStreamMq => .mqueue

/-- `for_each_persistent()` -/
def forEachPersistent (o : PersistentObject) (sys : System) (fs : Files) : List SharedName :=
  forEachPersistentImpl sys fs o.dir

/-- The files of the object of that name, in the order in which they are removed.
Source: `posix_mq_handle.cpp`, `bipc_mq_handle.cpp`, `blob_stream_mq_impl.hpp` `remove_persistent` -/
def paths (o : PersistentObject) (name : SharedName) : List Path :=
  match o with
  | posixMqHandle => [(.mqueue, name)]
  | bipcMqHandle => [(.shm, name)]
  | blobStreamMq => [(.mqueue, name), sentinelPath name true, sentinelPath name false]

/-- Removes one file after the other, and collects what that comes to. -/
def unlinkAll (sys : System) : List Path → Files → List ErrorCode × Files
  | [], fs => ([], fs)
  | p :: ps, fs =>
    let (err, fs) := fs.unlink sys p
    let (errs, fs) := unlinkAll sys ps fs
    (err :: errs, fs)

/-- Whether an assertion fails as the names of the files are made of that of the object: those of the sentinels are
made of an absolute name.
Source: `blob_stream_mq_impl.hpp` `mq_sentinel_name` -/
def assertFails (o : PersistentObject) (name : SharedName) : Bool :=
  match o with
  | posixMqHandle => false
  | bipcMqHandle => false
  | blobStreamMq => !name.absolute

/-- `remove_persistent()`: the error of the first removal that failed, if one did, what is left, and whether an
assertion has failed; execution goes on then, as in a build without assertions. -/
def removePersistent (o : PersistentObject) (sys : System) (fs : Files) (name : SharedName) :
    ErrorCode × Files × Bool :=
  let (errs, fs) := unlinkAll sys (o.paths name) fs
  (firstTruthy errs, fs, o.assertFails name)

/-- What removing several objects has come to. -/
structure Removed where
  /-- How many have been removed. -/
  count : Nat
  /-- What is left. -/
  files : Files
  /-- Some assertion has failed. -/
  assertFailed : Bool

/-- What is done with one name that is listed.
Source: `shared_name.hpp` `remove_each_persistent_if` -/
def handleName (o : PersistentObject) (sys : System) (filterFunc : SharedName → Bool)
    (s : Removed) (name : SharedName) : Removed :=
  if filterFunc name then
    let (err, fs, assertFails) := o.removePersistent sys s.files name
    ⟨if err = none then s.count + 1 else s.count, fs, s.assertFailed || assertFails⟩
  else s

/-- `remove_each_persistent_if()`: the count, and what is left.
Source: `shared_name.hpp` `remove_each_persistent_if` -/
def removeEachPersistentIf (o : PersistentObject) (sys : System) (filterFunc : SharedName → Bool)
    (fs : Files) : Removed :=
  (o.forEachPersistent sys fs).foldl (o.handleName sys filterFunc) ⟨0, fs, false⟩

/-- `remove_each_persistent_with_name_prefix()`
Source: `shared_name.hpp` `remove_each_persistent_with_name_prefix` -/
def removeEachPersistentWithNamePrefix (o : PersistentObject) (sys : System)
    (namePrefixOrEmpty : SharedName) (fs : Files) : Removed :=
  o.removeEachPersistentIf sys
    (fun name => namePrefixOrEmpty.isEmpty || namePrefixOrEmpty.isPrefixOf name) fs

end PersistentObject

/-! ## Several files -/

open PersistentObject

variable {sys : System} {fs : Files} {ps : List Path} {p : Path}

/-- A file that is to be removed, and can be. -/
def Swept (sys : System) (ps : List Path) (p : Path) : Prop :=
  p ∈ ps ∧ sys.refuses p = none

instance (sys : System) (ps : List Path) (p : Path) : Decidable (Swept sys ps p) :=
  inferInstanceAs (Decidable (_ ∧ _))

/-- What is left without the files that are swept. -/
def sweep (sys : System) (ps : List Path) (fs : Files) : Files :=
  fs.filter fun e => ¬ Swept sys ps e.path

/-- Of a part of the files the others are gone. -/
theorem has_filter_iff (keep : Path → Bool) : (fs.filter fun e => keep e.path).Has p ↔ fs.Has p ∧ keep p := by
  unfold Files.Has Files.filter
  simp only [List.mem_map, List.mem_filter]
  constructor
  · rintro ⟨e, ⟨he, hkeep⟩, rfl⟩
    exact ⟨⟨e, he, rfl⟩, hkeep⟩
  · rintro ⟨⟨e, he, rfl⟩, hkeep⟩
    exact ⟨e, ⟨he, hkeep⟩, rfl⟩

/-- After a sweep the files are there that were, but for those swept. -/
theorem has_sweep_iff : (sweep sys ps fs).Has p ↔ fs.Has p ∧ ¬ Swept sys ps p := by
  rw [sweep, has_filter_iff fun p => ¬ Swept sys ps p, decide_eq_true_iff]

/-- To sweep twice is to sweep both. -/
theorem sweep_sweep (qs : List Path) : sweep sys qs (sweep sys ps fs) = sweep sys (ps ++ qs) fs := by
  apply Files.ext
  unfold sweep Files.filter
  dsimp only
  rw [List.filter_filter]
  apply List.filter_congr
  intro e _
  rw [Bool.eq_iff_iff, Bool.and_eq_true, decide_eq_true_iff, decide_eq_true_iff, decide_eq_true_iff]
  unfold Swept
  rw [List.mem_append]
  tauto

/-- To sweep nothing changes nothing. -/
theorem sweep_nil : sweep sys [] fs = fs := by
  apply Files.ext
  unfold sweep Files.filter Swept
  simp

/-- One file: it is swept, and that succeeds if it was there. -/
theorem unlink_eq : fs.unlink sys p =
    (match sys.refuses p with
      | some errno => some (.system errno)
      | none => if fs.Has p then none else some (.system enoent), sweep sys [p] fs) := by
  unfold Files.unlink
  cases href : sys.refuses p with
  | some errno =>
      refine Prod.ext rfl (Files.ext ?_)
      unfold sweep Files.filter
      dsimp only
      rw [List.filter_eq_self.mpr]
      intro e _
      apply decide_eq_true
      rintro ⟨hmem, hnone⟩
      rw [List.mem_singleton.mp hmem, href] at hnone
      cases hnone
  | none =>
      refine Prod.ext rfl (Files.ext ?_)
      unfold sweep Files.filter
      apply List.filter_congr
      intro e _
      simp only [Swept, List.mem_singleton, decide_eq_decide]
      constructor
      · rintro hne ⟨heq, -⟩
        exact hne heq
      · rintro hno heq
        exact hno ⟨heq, heq ▸ href⟩

/-- It could be removed. -/
def Removable (sys : System) (fs : Files) (p : Path) : Prop :=
  fs.Has p ∧ sys.refuses p = none

instance (sys : System) (fs : Files) (p : Path) : Decidable (Removable sys fs p) :=
  inferInstanceAs (Decidable (_ ∧ _))

/-- A file can be unlinked if it is there and that is not refused. -/
theorem unlink_eq_none_iff : (fs.unlink sys p).1 = none ↔ Removable sys fs p := by
  rw [unlink_eq]
  unfold Removable
  cases href : sys.refuses p with
  | some errno => simp
  | none => by_cases hhas : fs.Has p <;> simp [hhas]

/-- There is no error among several if none of them is one. -/
theorem firstTruthy_cons_eq_none_iff {err : ErrorCode} {errs : List ErrorCode} :
    firstTruthy (err :: errs) = none ↔ err = none ∧ firstTruthy errs = none := by
  cases err <;> simp [firstTruthy]

/-- Several files, no two the same: they are swept, and that succeeds if all were there. By induction on the
files: those swept before it are others. -/
theorem unlinkAll_spec (hnodup : ps.Nodup) :
    (unlinkAll sys ps fs).2 = sweep sys ps fs ∧
      (firstTruthy (unlinkAll sys ps fs).1 = none ↔ ∀ p ∈ ps, Removable sys fs p) := by
  induction ps generalizing fs with
  | nil => exact ⟨sweep_nil.symm, by simp [unlinkAll, firstTruthy]⟩
  | cons p ps ih =>
      obtain ⟨hnew, hnodup⟩ := List.nodup_cons.mp hnodup
      obtain ⟨hleft, hok⟩ : (unlinkAll sys ps (fs.unlink sys p).2).2 = sweep sys ps (fs.unlink sys p).2 ∧
          (firstTruthy (unlinkAll sys ps (fs.unlink sys p).2).1 = none ↔
            ∀ q ∈ ps, Removable sys (fs.unlink sys p).2 q) := ih hnodup
      have hsweep : (fs.unlink sys p).2 = sweep sys [p] fs := by rw [unlink_eq]
      refine ⟨?_, ?_⟩
      · show (unlinkAll sys ps (fs.unlink sys p).2).2 = _
        rw [hleft, hsweep, sweep_sweep]
        rfl
      · show firstTruthy ((fs.unlink sys p).1 :: (unlinkAll sys ps (fs.unlink sys p).2).1) = none ↔ _
        rw [firstTruthy_cons_eq_none_iff, unlink_eq_none_iff, hok, List.forall_mem_cons, hsweep]
        apply and_congr_right'
        apply forall₂_congr
        intro q hq
        have hother : ¬ Swept sys [p] q := by
          rintro ⟨hmem, -⟩
          exact hnew (List.mem_singleton.mp hmem ▸ hq)
        unfold Removable
        rw [has_sweep_iff]
        exact and_congr_left' (and_iff_left hother)

/-! ## Several objects -/

variable {o : PersistentObject} {name name' : SharedName} {names : List SharedName}

/-- Different sentinels have different names. -/
theorem sentinelPath_inj {d d' : Bool} : sentinelPath name d = sentinelPath name' d' ↔ name = name' ∧ d = d' := by
  have hlen : ∀ b, (sentinelSuffix b).length = 3 := by
    intro b
    cases b <;> rfl
  constructor
  · intro heq
    have h : mqSentinelName ⟨"posixQ".toList, name⟩ d = mqSentinelName ⟨"posixQ".toList, name'⟩ d' :=
      congrArg Prod.snd heq
    have hname : name = name' := by
      unfold mqSentinelName at h
      dsimp only at h
      rw [List.append_assoc, List.append_assoc] at h
      refine (List.append_inj (List.append_cancel_left h) ?_).2
      rw [hlen, hlen]
    subst hname
    exact ⟨rfl, mqSentinelName_injective _ h⟩
  · rintro ⟨rfl, rfl⟩
    rfl

/-- A sentinel is in the other directory than the queues. -/
theorem sentinelPath_ne_mqueue {d : Bool} : sentinelPath name d ≠ (.mqueue, name') :=
  fun h => DevDir.noConfusion (congrArg Prod.fst h)

namespace PersistentObject

/-- The files of an object are in different places. -/
theorem paths_nodup (o : PersistentObject) (name : SharedName) : (o.paths name).Nodup := by
  cases o with
  | posixMqHandle => exact List.nodup_singleton _
  | bipcMqHandle => exact List.nodup_singleton _
  | blobStreamMq =>
      simp [paths, sentinelPath_inj, sentinelPath_ne_mqueue.symm]

/-- Two objects of a type share no file. -/
theorem paths_disjoint (o : PersistentObject) (hne : name ≠ name') : (o.paths name).Disjoint (o.paths name') := by
  intro p hp hp'
  cases o with
  | posixMqHandle =>
      rw [List.mem_singleton.mp hp] at hp'
      exact hne (congrArg Prod.snd (List.mem_singleton.mp hp'))
  | bipcMqHandle =>
      rw [List.mem_singleton.mp hp] at hp'
      exact hne (congrArg Prod.snd (List.mem_singleton.mp hp'))
  | blobStreamMq =>
      simp only [paths, List.mem_cons, List.not_mem_nil, or_false] at hp hp'
      rcases hp with rfl | rfl | rfl
      · simp [hne, sentinelPath_ne_mqueue.symm] at hp'
      · simp [hne, sentinelPath_inj, sentinelPath_ne_mqueue] at hp'
      · simp [hne, sentinelPath_inj, sentinelPath_ne_mqueue] at hp'

/-- All files of the object are there, and can be removed. -/
def Whole (o : PersistentObject) (sys : System) (fs : Files) (name : SharedName) : Prop :=
  ∀ p ∈ o.paths name, Removable sys fs p

instance (o : PersistentObject) (sys : System) (fs : Files) (name : SharedName) :
    Decidable (o.Whole sys fs name) :=
  inferInstanceAs (Decidable (∀ p ∈ o.paths name, Removable sys fs p))

/-- One object: its files are swept, and that succeeds if it was whole. -/
theorem removePersistent_spec (o : PersistentObject) (sys : System) (fs : Files) (name : SharedName) :
    (o.removePersistent sys fs name).2.1 = sweep sys (o.paths name) fs ∧
    ((o.removePersistent sys fs name).1 = none ↔ o.Whole sys fs name) :=
  unlinkAll_spec (o.paths_nodup name)

/-- Whether an object is whole does not depend on the files of another. -/
theorem whole_sweep_iff (hne : name ≠ name') :
    o.Whole sys (sweep sys (o.paths name) fs) name' ↔ o.Whole sys fs name' := by
  unfold Whole
  apply forall₂_congr
  intro p hp
  have hother : ¬ Swept sys (o.paths name) p := fun hswept => o.paths_disjoint hne hswept.1 hp
  unfold Removable
  rw [has_sweep_iff]
  exact and_congr_left' (and_iff_left hother)

/-- Sweeping the files of another object breaks none that was whole. -/
theorem countP_whole_sweep (hnew : name ∉ names) : names.countP (o.Whole sys (sweep sys (o.paths name) fs) ·) =
    names.countP (o.Whole sys fs ·) := by
  apply List.countP_congr
  intro name' hname'
  rw [decide_eq_true_iff, decide_eq_true_iff]
  exact whole_sweep_iff fun heq => hnew (heq ▸ hname')

/-- Several names, no two the same: by induction on them, the objects removed before an object leave it as it
was. -/
theorem foldl_handleName_spec {filterFunc : SharedName → Bool} {count : Nat} {failed : Bool} (hnodup : names.Nodup) :
    names.foldl (o.handleName sys filterFunc) ⟨count, fs, failed⟩ =
      ⟨count + (names.filter filterFunc).countP (o.Whole sys fs ·),
        sweep sys ((names.filter filterFunc).flatMap o.paths) fs,
        failed || (names.filter filterFunc).any o.assertFails⟩ := by
  induction names generalizing count fs failed with
  | nil => simp [sweep_nil]
  | cons name names ih =>
      obtain ⟨hnew, hnodup⟩ := List.nodup_cons.mp hnodup
      rw [List.foldl_cons]
      cases hfilter : filterFunc name with
      | false =>
          rw [List.filter_cons_of_neg (by simp [hfilter])]
          have hskip : o.handleName sys filterFunc ⟨count, fs, failed⟩ name = ⟨count, fs, failed⟩ := by
            simp [handleName, hfilter]
          rw [hskip]
          exact ih hnodup
      | true =>
          obtain ⟨hleft, hok⟩ := removePersistent_spec o sys fs name
          have hnew' : name ∉ names.filter filterFunc := fun hmem => hnew (List.mem_of_mem_filter hmem)
          have hone : o.handleName sys filterFunc ⟨count, fs, failed⟩ name =
              ⟨if o.Whole sys fs name then count + 1 else count, sweep sys (o.paths name) fs,
                failed || o.assertFails name⟩ := by
            unfold handleName
            rw [if_pos hfilter]
            simp only [hleft, hok]
            rfl
          rw [hone, ih hnodup, countP_whole_sweep hnew', sweep_sweep, Bool.or_assoc,
            List.filter_cons_of_pos hfilter, List.flatMap_cons, List.countP_cons, List.any_cons]
          congr 1
          by_cases hwhole : o.Whole sys fs name
          · simp [hwhole]
            omega
          · simp [hwhole]

end PersistentObject

/-! ## All objects with a prefix -/

/-- The names that are listed and begin so. -/
def PersistentObject.listed (o : PersistentObject) (sys : System) (namePrefix : SharedName) (fs : Files) :
    List SharedName :=
  (o.forEachPersistent sys fs).filter fun name => namePrefix <+: name

/-- No name is listed twice. -/
theorem PersistentObject.forEachPersistent_nodup : (o.forEachPersistent sys fs).Nodup := by
  unfold PersistentObject.forEachPersistent forEachPersistentImpl
  split_ifs with hopens
  · have hpaths : ((fs.entries.filter fun e => e.path.1 = o.dir ∧ e.isRegularFile).map Entry.path).Nodup :=
      (List.filter_sublist.map Entry.path).nodup fs.nodup
    rw [show (fun e : Entry => e.path.2) = Prod.snd ∘ Entry.path from rfl, ← List.map_map]
    apply List.Nodup.map_on _ hpaths
    intro p hp q hq heq
    obtain ⟨e, he, rfl⟩ := List.mem_map.mp hp
    obtain ⟨e', he', rfl⟩ := List.mem_map.mp hq
    have hdir : e.path.1 = o.dir := (of_decide_eq_true (List.mem_filter.mp he).2).1
    have hdir' : e'.path.1 = o.dir := (of_decide_eq_true (List.mem_filter.mp he').2).1
    exact Prod.ext (hdir.trans hdir'.symm) heq
  · exact List.nodup_nil

/-- What comes of removing all objects of a type whose names begin so. -/
structure RemovesEach (o : PersistentObject) (sys : System) (namePrefix : SharedName) (fs : Files) : Prop where
  /-- Gone are the files of the objects listed under such a name, but for those refused. -/
  left : (o.removeEachPersistentWithNamePrefix sys namePrefix fs).files.entries =
    fs.entries.filter fun e => ¬ ((∃ name ∈ o.listed sys namePrefix fs, e.path ∈ o.paths name) ∧
      sys.refuses e.path = none)
  /-- Counted are those that were whole. -/
  count : (o.removeEachPersistentWithNamePrefix sys namePrefix fs).count =
    (o.listed sys namePrefix fs).countP (o.Whole sys fs ·)
  /-- If nothing is refused, and each file under such a name belongs to an object that is listed, then all of them
  are gone. -/
  clean : (∀ p, sys.refuses p = none) → ∀ name, namePrefix <+: name →
    ((∃ p ∈ o.paths name, fs.Has p) → name ∈ o.forEachPersistent sys fs) →
      ∀ p ∈ o.paths name, ¬ (o.removeEachPersistentWithNamePrefix sys namePrefix fs).files.Has p
  /-- The assertion that the name of a queue is absolute fails if there is one that is not. -/
  asserts : (o.removeEachPersistentWithNamePrefix sys namePrefix fs).assertFailed = true ↔
    o = .blobStreamMq ∧ ∃ name ∈ o.listed sys namePrefix fs, name.absolute = false

/-- An empty prefix needs no case of its own. -/
theorem hasPrefix_eq (namePrefix name : SharedName) :
    (namePrefix.isEmpty || namePrefix.isPrefixOf name) = decide (namePrefix <+: name) := by
  rw [Bool.eq_iff_iff, decide_eq_true_iff, ← List.isPrefixOf_iff_prefix, Bool.or_eq_true]
  constructor
  · rintro (hempty | hprefix)
    · rw [List.isEmpty_iff.mp hempty]
      rfl
    · exact hprefix
  · exact Or.inr

/-- What the loop comes to. -/
theorem removeEach_eq (o : PersistentObject) (sys : System) (namePrefix : SharedName) (fs : Files) :
    o.removeEachPersistentWithNamePrefix sys namePrefix fs =
      ⟨(o.listed sys namePrefix fs).countP (o.Whole sys fs ·),
        sweep sys ((o.listed sys namePrefix fs).flatMap o.paths) fs,
        (o.listed sys namePrefix fs).any o.assertFails⟩ := by
  unfold removeEachPersistentWithNamePrefix removeEachPersistentIf
  rw [foldl_handleName_spec forEachPersistent_nodup, Nat.zero_add, Bool.false_or]
  unfold listed
  simp only [hasPrefix_eq]

/-- **Removing every object with a prefix** deletes the files of the objects that are listed and no others, and
counts those it deleted whole. -/
theorem removesEach (o : PersistentObject) (sys : System) (namePrefix : SharedName) (fs : Files) :
    RemovesEach o sys namePrefix fs where
  left := by
    rw [removeEach_eq]
    apply List.filter_congr
    intro e _
    rw [decide_eq_decide]
    unfold Swept
    rw [List.mem_flatMap]
  count := by rw [removeEach_eq]
  clean := by
    intro hrefuses name hprefix hlisted p hp hhas
    rw [removeEach_eq, has_sweep_iff] at hhas
    obtain ⟨hhas, hkept⟩ := hhas
    -- the file was there before, so its object is listed, and what is listed is swept
    have hmem : name ∈ o.listed sys namePrefix fs :=
      List.mem_filter.mpr ⟨hlisted ⟨p, hp, hhas⟩, decide_eq_true hprefix⟩
    exact hkept ⟨List.mem_flatMap.mpr ⟨name, hmem, hp⟩, hrefuses p⟩
  asserts := by
    rw [removeEach_eq, List.any_eq_true]
    cases o with
    | posixMqHandle => simp [assertFails]
    | bipcMqHandle => simp [assertFails]
    | blobStreamMq => simp [assertFails]

/-- A whole queue, a queue without its sentinels, a queue of another prefix, and the sentinels of one that is gone. -/
def sampleFiles : Files where
  entries := [⟨(.mqueue, "_ab".toList), true⟩, ⟨sentinelPath "_ab".toList true, true⟩,
    ⟨sentinelPath "_ab".toList false, true⟩, ⟨(.mqueue, "_ac".toList), true⟩, ⟨(.mqueue, "_b".toList), true⟩,
    ⟨sentinelPath "_ad".toList true, true⟩]
  nodup := by decide

/-- The first is counted, the second is not, and what is left of the last is not found. -/
example :
    let res := PersistentObject.blobStreamMq.removeEachPersistentWithNamePrefix
      { opens := fun _ => true, refuses := fun _ => none } "_a".toList sampleFiles
    res.count = 1 ∧ res.assertFailed = false ∧
      res.files.entries.map Entry.path = [(.mqueue, "_b".toList), sentinelPath "_ad".toList true] := by
  decide

end FlowIpc.RemoveEach
