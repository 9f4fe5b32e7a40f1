import TokenPumper.Keys.Singleton

namespace TokenPumper
open Effect FileTree
set_option autoImplicit true

namespace Batch

/-- The file of the `i`-th key, counted from one. -/
def keyPath (dir : Path) (i : Nat) : Path := (toString i ++ ".json") :: dir

def keyPaths (dir : Path) (count : Nat) : List Path := (List.range' 1 count).map (keyPath dir)

def todayDir (keysDir : Path) : Run Path := do
  let day ← today
  pure (day :: keysDir)

/-- Are all of them there? The question stops at the first that is not. -/
def allExist : List Path → Run Bool
  | [] => pure true
  | path :: paths => do
    if ← fileExists path then allExist paths else pure false

def isComplete (dir : Path) (count : Nat) : Run Bool := do
  if ← fileExists dir then allExist (keyPaths dir count) else pure false

def isJson (name : String) : Bool := extension name = some "json"

def clearEntry (dir : Path) (name : String) : Run Unit := do
  syscall
  if isJson name then removeFile (name :: dir)

def clearJsons (dir : Path) : Run Unit := do
  if ← fileExists dir then do
    let names ← withContext s!"reading batch dir {display dir}" (readDir dir)
    let _ ← each (clearEntry dir) names
    pure ()

variable [Ed25519]

def load (dir : Path) (count : Nat) : Run (List SigningKey) :=
  each Storage.read (keyPaths dir count)

def createKey (path : Path) : Run SigningKey := do
  let kp ← generateKeypair
  Storage.writeNew path kp
  pure kp

def createFresh (dir : Path) (count : Nat) : Run (List SigningKey) := do
  withContext s!"creating batch dir {display dir}" (createDirAll dir)
  clearJsons dir
  each createKey (keyPaths dir count)

def resolveToday (keysDir : Path) (count : Nat) : Run (List SigningKey × Origin) := do
  let dir ← todayDir keysDir
  if ← isComplete dir count then do
    let kps ← load dir count
    pure (kps, .loaded)
  else do
    let kps ← createFresh dir count
    pure (kps, .created)

def regenerateToday (keysDir : Path) (count : Nat) : Run (List SigningKey) := do
  let dir ← todayDir keysDir
  createFresh dir count

end Batch

open Batch

/-- The files of a directory hold the keys, the first in `1.json`. -/
def HoldKeys [Ed25519] (dir : Path) (kps : List SigningKey) (disk : Tree) : Prop :=
  ∀ i kp, kps[i]? = some kp → keyAt disk (keyPath dir (i + 1)) = some kp

theorem keyPaths_getElem? (dir : Path) (count i : Nat) (h : (keyPaths dir count)[i]? = some path) :
    path = keyPath dir (i + 1) := by
  rw [keyPaths, List.getElem?_map, Option.map_eq_some_iff] at h
  obtain ⟨k, hk, rfl⟩ := h
  obtain ⟨hlt, hk⟩ := List.getElem?_eq_some_iff.1 hk
  rw [List.getElem_range'] at hk
  rw [← hk, Nat.add_comm, Nat.one_mul]

@[simp] theorem length_keyPaths (dir : Path) (count : Nat) :
    (keyPaths dir count).length = count := by
  rw [keyPaths, List.length_map, List.length_range']

theorem isJson_keyName (i : Nat) : isJson (toString i ++ ".json") = true := by
  have hne : toString i ≠ "" := by simp
  rw [isJson, extension_json hne]
  rfl

section Clear
variable {env : Env} {D D' : Cond} {E : World → Prop} {dir keysDir : Path}

theorem isDir_addStable (dir : Path) : Cond.AddStable fun disk _ => disk.IsDir dir := by
  rintro disk log name parent node hd hnew (rfl | h)
  · exact .inl rfl
  · exact .inr (Tree.lookup_add_of_some hd hnew h)

theorem isDir_removes (dir removed : Path) :
    Cond.Removes (fun disk _ => disk.IsDir dir) (fun disk _ => disk.IsDir dir) removed := by
  rintro disk log bytes hf (rfl | h)
  · exact .inl rfl
  · have hne : dir ≠ removed := by
      rintro rfl
      cases hf.symm.trans h
    exact .inr ((Tree.lookup_removeFile_of_ne hf hne).trans h)

theorem triple_today (hE : ∀ w, on D w → E w) :
    Triple env (on D) today
      (fun day => on fun disk log => (∃ n, formatYmd n = some day) ∧
        ∃ before, log = before ++ [.today day] ∧ D disk before) E := by
  apply Triple.bind triple_ask
  intro clock
  cases clock with
  | none => exact Triple.fail hE
  | some secs =>
    apply Triple.bind (triple_orPanic hE)
    intro day
    refine Triple.bind (Q := fun _ => on fun disk log => (∃ n, formatYmd n = some day) ∧
      ∃ before, log = before ++ [.today day] ∧ D disk before) ?_ fun _ => Triple.pure fun w hw => hw
    exact triple_record fun disk log hw => ⟨⟨_, hw.2⟩, log, rfl, hw.1⟩

theorem triple_clearEntry (hrem : isJson name → D.Removes D (name :: dir))
    (hE : ∀ w, on D w → E w) :
    Triple env (on D) (clearEntry dir name) (fun _ => on D) E := by
  apply Triple.bind (triple_syscall hE)
  intro _
  split
  · rename_i hjson
    exact triple_removeFile (hrem hjson) hE
  · exact Triple.pure fun w hw => hw

theorem triple_clearJsons (hrem : ∀ name, isJson name → D.Removes D (name :: dir))
    (hE : ∀ w, on D w → E w) :
    Triple env (on D) (clearJsons dir) (fun _ => on D) E := by
  apply Triple.bind triple_fileExists
  intro there
  split
  · refine Triple.bind (Q := fun _ => on D) ?_ fun names => ?_
    · exact (triple_withContext (triple_readDir (D := D) hE)).conseq (fun w hw => hw.1)
        (fun _ w hw => hw.1) fun _ h => h
    · refine Triple.bind (Q := fun _ => on D) ?_ fun _ => Triple.pure fun w hw => hw
      exact Triple.each (fun _ _ => on D) fun _ name _ _ _ => triple_clearEntry (hrem name) hE
  · exact Triple.pure fun w hw => hw.1

theorem triple_allExist (paths : List Path) :
    Triple env (on D) (allExist paths)
      (fun all => on fun disk log => D disk log ∧
        (all = true → ∀ path ∈ paths, (disk.lookup path).isSome)) E := by
  induction paths generalizing D with
  | nil => exact Triple.pure fun w hw => ⟨hw, fun _ path hp => absurd hp List.not_mem_nil⟩
  | cons path paths ih =>
    apply Triple.bind triple_fileExists
    intro there
    split
    · rename_i hthere
      refine ih.conseq (fun _ h => h) ?_ fun _ h => h
      rintro all w ⟨⟨hw, hpath⟩, hall⟩
      exact ⟨hw, fun h => List.forall_mem_cons.2 ⟨hpath hthere, hall h⟩⟩
    · exact Triple.pure fun w hw => ⟨hw.1, fun h => absurd h Bool.false_ne_true⟩

theorem triple_isComplete (count : Nat) :
    Triple env (on D) (isComplete dir count)
      (fun all => on fun disk log => D disk log ∧ (all = true → (disk.lookup dir).isSome ∧
        ∀ path ∈ keyPaths dir count, (disk.lookup path).isSome)) E := by
  apply Triple.bind triple_fileExists
  intro there
  split
  · rename_i hthere
    refine (triple_allExist _).conseq (fun _ h => h) ?_ fun _ h => h
    rintro all w ⟨⟨hw, hdir⟩, hall⟩
    exact ⟨hw, fun h => ⟨hdir hthere, hall h⟩⟩
  · exact Triple.pure fun w hw => ⟨hw.1, fun h => absurd h Bool.false_ne_true⟩

end Clear

variable [Ed25519] {env : Env} {D D' : Cond} {E : World → Prop} {dir keysDir : Path}

theorem HoldKeys.add {disk : Tree} {parent : Path} {node : Node} (hd : disk.IsDir parent)
    (hnew : disk.lookup (name :: parent) = none) (h : HoldKeys dir kps disk) :
    HoldKeys dir kps (disk.add name parent node hd hnew) :=
  fun i kp hi => keyAt_add hd hnew (h i kp hi)

theorem HoldKeys.concat {disk : Tree} (h : HoldKeys dir kps disk)
    (hkp : keyAt disk (keyPath dir (kps.length + 1)) = some kp) :
    HoldKeys dir (kps ++ [kp]) disk := by
  intro i kp' hi
  by_cases hlt : i < kps.length
  · rw [List.getElem?_append_left hlt] at hi
    exact h i kp' hi
  · have hle : kps.length ≤ i := Nat.le_of_not_lt hlt
    rw [List.getElem?_append_right hle] at hi
    have hz : i - kps.length = 0 := by
      by_contra hne
      obtain ⟨k, hk⟩ := Nat.exists_eq_succ_of_ne_zero hne
      rw [hk] at hi
      cases hi
    obtain rfl : kp = kp' := by simpa [hz] using hi
    obtain rfl : i = kps.length := by omega
    exact hkp

/-- Running over the key files in order, where each step finds out or makes one key. -/
theorem triple_eachKey {f : Path → Run SigningKey} (count : Nat)
    (hf : ∀ (D' : Cond) path, D'.AddStable → (∀ w, on D' w → E w) → Triple env (on D') (f path)
      (fun kp => on fun disk log => D' disk log ∧ keyAt disk path = some kp) E)
    (hD : D.AddStable) (hE : ∀ w, on D w → E w) :
    Triple env (on D) (each f (keyPaths dir count))
      (fun kps => on fun disk log => D disk log ∧ kps.length = count ∧ HoldKeys dir kps disk)
      E := by
  let done (paths : List Path) (kps : List SigningKey) : Cond := fun disk log =>
    D disk log ∧ paths.length = kps.length ∧ HoldKeys dir kps disk
  have hstart : ∀ w, on D w → on (done [] []) w :=
    fun w hw => ⟨hw, rfl, fun i kp hi => by simp at hi⟩
  refine (Triple.each (fun paths kps => on (done paths kps)) ?_).conseq hstart ?_ fun _ h => h
  · intro paths path rest kps hsplit
    have hpath : path = keyPath dir (paths.length + 1) := by
      refine keyPaths_getElem? dir count paths.length ?_
      rw [hsplit, List.getElem?_append_right (Nat.le_refl _), Nat.sub_self, List.getElem?_cons_zero]
    have hstable : (done paths kps).AddStable :=
      fun _ _ name parent node hd h hk =>
        ⟨hD name parent node hd h hk.1, hk.2.1, hk.2.2.add hd h⟩
    refine (hf _ path hstable fun w hw => hE w hw.1).conseq (fun _ h => h) ?_ fun _ h => h
    rintro kp w ⟨⟨hw, hlen, hkeys⟩, hkp⟩
    rw [hpath, hlen] at hkp
    exact ⟨hw, by simp [hlen], hkeys.concat hkp⟩
  · rintro kps w ⟨hw, hlen, hkeys⟩
    exact ⟨hw, by rw [← hlen, length_keyPaths], hkeys⟩

theorem triple_load (count : Nat) (hD : D.AddStable) (hE : ∀ w, on D w → E w) :
    Triple env (on D) (load dir count)
      (fun kps => on fun disk log => D disk log ∧ kps.length = count ∧ HoldKeys dir kps disk) E :=
  triple_eachKey count (fun _ _ _ hE' => triple_storageRead hE') hD hE

theorem triple_createBatchKey {path : Path} (hD : D.AddStable) (hE : ∀ w, on D w → E w) :
    Triple env (on D) (createKey path)
      (fun kp => on fun disk log => D disk log ∧ keyAt disk path = some kp) E := by
  apply Triple.bind (triple_generateKeypair hE)
  intro kp
  apply Triple.bind (triple_storageWriteNew hD hE)
  intro _
  exact Triple.pure fun w hw => hw

/-- First directories are added, then `*.json` files of the directory go, then the keys are
written: what each phase keeps is kept. -/
theorem triple_createFresh (count : Nat) (hdir : D.DirStable)
    (hrem : ∀ name, isJson name → D.Removes D (name :: dir))
    (hstay : ∀ disk log, D disk log → D' disk log) (hD' : D'.AddStable)
    (hE : ∀ w, on D w → E w) (hE' : ∀ w, on D' w → E w) :
    Triple env (on D) (createFresh dir count)
      (fun kps => on fun disk log =>
        (D' disk log ∧ disk.IsDir dir) ∧ kps.length = count ∧ HoldKeys dir kps disk) E := by
  apply Triple.bind (triple_withContext (triple_createDirAll hdir hE dir))
  intro _
  have hrem' (name : String) (hjson : isJson name) :=
    (hrem name hjson).and (isDir_removes dir (name :: dir))
  apply Triple.bind (triple_clearJsons hrem' fun w hw => hE w hw.1)
  intro _
  refine (triple_eachKey count (fun _ _ => triple_createBatchKey) (hD'.and (isDir_addStable dir))
    fun w hw => hE' w hw.1).conseq ?_ (fun _ _ h => h) fun _ h => h
  exact fun w hw => ⟨hstay w.disk w.log hw.1, hw.2⟩

end TokenPumper
