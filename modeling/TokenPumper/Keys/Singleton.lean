import TokenPumper.Keys.Rules

namespace TokenPumper
open Effect FileTree
set_option autoImplicit true

inductive Origin
  | loaded
  | created
deriving DecidableEq, Repr

def generateKeypair : Run SigningKey := do orPanic (← ask (·.seed))

def createParentDir : Path → Run Unit
  | [] => pure ()
  | _ :: parent => withContext s!"creating parent dir {display parent}" (createDirAll parent)

section Create
variable {env : Env} {D : Cond} {E : World → Prop}

theorem triple_generateKeypair (hE : ∀ w, on D w → E w) :
    Triple env (on D) generateKeypair (fun _ => on D) E :=
  Triple.bind triple_ask fun _ =>
    (triple_orPanic hE).conseq (fun _ h => h) (fun _ _ h => h.1) fun _ h => h

theorem triple_createParentDir (hD : D.DirStable) (hE : ∀ w, on D w → E w) (path : Path) :
    Triple env (on D) (createParentDir path) (fun _ => on D) E := by
  cases path with
  | nil => exact Triple.pure fun w hw => hw
  | cons name parent =>
    exact (triple_withContext (triple_createDirAll hD hE parent)).conseq
      (fun _ h => h) (fun _ _ h => h.1) fun _ h => h

end Create

variable [Ed25519]

namespace Singleton

def ensure (path : Path) : Run (SigningKey × Origin) := do
  if ← fileExists path then do
    let kp ← Storage.read path
    pure (kp, .loaded)
  else do
    createParentDir path
    let kp ← generateKeypair
    Storage.writeNew path kp
    pure (kp, .created)

def removeStale (path : Path) : Run Unit := do
  if ← fileExists path then
    withContext s!"removing stale key {display path}" (removeFile path)

def regenerate (path : Path) : Run SigningKey := do
  removeStale path
  createParentDir path
  let kp ← generateKeypair
  Storage.writeNew path kp
  pure kp

end Singleton

def Eater.ensure (path : Path) : Run SigningKey := do
  let (kp, _) ← Singleton.ensure path
  pure kp

def Funder.resolve (path : Path) : Run (SigningKey × Origin) := Singleton.ensure path

def Funder.regenerate (path : Path) : Run SigningKey := Singleton.regenerate path

def Dev.resolve (path : Path) : Run (SigningKey × Origin) := Singleton.ensure path

variable {env : Env} {D D' : Cond} {E : World → Prop} {path : Path} {disk : Tree}

theorem keyAt_of_file (h : disk.lookup path = some (.file bytes)) :
    keyAt disk path = keyOf bytes := by
  rw [keyAt, h]

theorem isSome_of_keyAt (h : keyAt disk path = some kp) : (disk.lookup path).isSome := by
  rw [keyAt] at h
  split at h
  · rename_i bytes hfile
    rw [hfile]
    rfl
  · cases h

theorem keyAt_congr {disk' : Tree} (h : disk.lookup path = disk'.lookup path) :
    keyAt disk path = keyAt disk' path := by
  rw [keyAt, keyAt, h]

theorem keyAt_add {node : Node} (hd : disk.IsDir dir) (hnew : disk.lookup (name :: dir) = none)
    (h : keyAt disk path = some kp) : keyAt (disk.add name dir node hd hnew) path = some kp := by
  rw [keyAt] at h
  split at h
  · rename_i bytes hfile
    rw [keyAt_of_file (Tree.lookup_add_of_some hd hnew hfile), h]
  · cases h

theorem keyAt_removeFile {removed : Path} (hf : disk.lookup removed = some (.file bytes))
    (hne : path ≠ removed) (h : keyAt disk path = some kp) :
    keyAt (disk.removeFile removed hf) path = some kp := by
  rw [keyAt, Tree.lookup_removeFile_of_ne hf hne]
  exact h

theorem triple_storageWriteNew (hD : D.AddStable) (hE : ∀ w, on D w → E w) :
    Triple env (on D) (Storage.writeNew path kp)
      (fun _ => on fun disk log => D disk log ∧ keyAt disk path = some kp) E := by
  refine (triple_writeNew hD hE).conseq (fun _ h => h) ?_ fun _ h => h
  rintro _ w ⟨hw, hfile⟩
  exact ⟨hw, (keyAt_of_file hfile).trans (keyOf_keyFile kp)⟩

theorem triple_storageRead (hE : ∀ w, on D w → E w) :
    Triple env (on D) (Storage.read path)
      (fun kp => on fun disk log => D disk log ∧ keyAt disk path = some kp) E := by
  apply Triple.bind (triple_withContext (triple_readToString hE))
  intro text
  split
  · rename_i kp hkp
    refine Triple.pure ?_
    rintro w ⟨hw, bytes, hfile, htext⟩
    refine ⟨hw, (keyAt_of_file hfile).trans ?_⟩
    rw [keyOf, htext, Option.bind_some, hkp]
  · exact Triple.fail fun w hw => hE w hw.1

theorem triple_createKey (g : SigningKey → β) (hD : D.AddStable) (hE : ∀ w, on D w → E w) :
    Triple env (on D)
      (do
        createParentDir path
        let kp ← generateKeypair
        Storage.writeNew path kp
        pure (g kp))
      (fun b => on fun disk log => D disk log ∧ ∃ kp, b = g kp ∧ keyAt disk path = some kp) E := by
  apply Triple.bind (triple_createParentDir hD.dirStable hE path)
  intro _
  apply Triple.bind (triple_generateKeypair hE)
  intro kp
  apply Triple.bind (triple_storageWriteNew hD hE)
  intro _
  exact Triple.pure fun w hw => ⟨hw.1, kp, rfl, hw.2⟩

theorem triple_ensure (hD : D.AddStable) (hE : ∀ w, on D w → E w) :
    Triple env (on D) (Singleton.ensure path)
      (fun kp => on fun disk log => D disk log ∧ keyAt disk path = some kp.1) E := by
  apply Triple.bind triple_fileExists
  intro there
  split
  · refine Triple.bind (Q := fun kp => on fun disk log => D disk log ∧ keyAt disk path = some kp)
      ?_ fun kp => Triple.pure fun w hw => hw
    exact (triple_storageRead hE).conseq (fun w hw => hw.1) (fun _ _ h => h) fun _ h => h
  · refine (triple_createKey (fun kp => (kp, Origin.created)) hD hE).conseq
      (fun w hw => hw.1) ?_ fun _ h => h
    rintro _ w ⟨hw, kp, rfl, hkp⟩
    exact ⟨hw, hkp⟩

/-- The old file goes, whatever is left after that is kept, and the file holds the new key. -/
theorem triple_regenerate (hrem : D.Removes D' path) (hstay : ∀ disk log, D disk log → D' disk log)
    (hD' : D'.AddStable) (hE : ∀ w, on D w → E w) (hE' : ∀ w, on D' w → E w) :
    Triple env (on D) (Singleton.regenerate path)
      (fun kp => on fun disk log => D' disk log ∧ keyAt disk path = some kp) E := by
  refine Triple.bind (Q := fun _ => on D') ?_ fun _ => ?_
  · apply Triple.bind triple_fileExists
    intro there
    split
    · exact (triple_withContext (triple_removeFile hrem hE)).conseq (fun w hw => hw.1)
        (fun _ _ h => h) fun _ h => h
    · exact Triple.pure fun w hw => hstay w.disk w.log hw.1
  · refine (triple_createKey id hD' hE').conseq (fun _ h => h) ?_ fun _ h => h
    rintro _ w ⟨hw, kp, rfl, hkp⟩
    exact ⟨hw, hkp⟩

end TokenPumper
