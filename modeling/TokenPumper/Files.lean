import TokenPumper.Keys.Rules
import TokenPumper.Lib.Fallible

namespace TokenPumper
open Effect FileTree
set_option autoImplicit true

/-- `fs::write`: the file is created or emptied, then written. A write that fails leaves what it
has written. -/
def writeFile (path : Path) (bytes : List UInt8) : Run Unit := do
  let fault ← ask (·.ioFault)
  let w ← current
  match fault, path with
  | some reason, _ => bail reason
  | none, [] => bail isADirectory
  | none, name :: dir =>
    if hd : w.disk.IsDir dir then
      if hf : w.disk.lookup (name :: dir) ≠ some .dir then do
        let failing ← ask (·.ioFault)
        let kept ← ask (·.torn)
        match failing with
        | none => update (·.withDisk (w.disk.put name dir bytes hd hf))
        | some reason => do
          update (·.withDisk (w.disk.put name dir (bytes.take kept) hd hf))
          bail reason
      else bail isADirectory
    else if w.disk.lookup dir = none then bail noSuchFile
    else bail notADirectory

/-- `fs::rename` of a file, which is one step: nobody sees the target without a file of its own.
Directories are not renamed here. -/
def renameFile (source target : Path) : Run Unit := do
  syscall
  let w ← current
  match h : w.disk.lookup source with
  | none => bail noSuchFile
  | some .dir => bail isADirectory
  | some (.file bytes) =>
    match target with
    | [] => bail isADirectory
    | name :: dir =>
      if hd : (w.disk.removeFile source h).IsDir dir then
        if hf : (w.disk.removeFile source h).lookup (name :: dir) ≠ some .dir then
          update (·.withDisk ((w.disk.removeFile source h).put name dir bytes hd hf))
        else bail isADirectory
      else bail noSuchFile

def readFile (path : Path) : Run (List UInt8) := do
  syscall
  let w ← current
  match w.disk.lookup path with
  | none => bail noSuchFile
  | some .dir => bail isADirectory
  | some (.file bytes) => pure bytes

def Cond.Ignores (D : Cond) (path : Path) : Prop :=
  ∀ ⦃disk disk' log⦄, (∀ p, p ≠ path → disk'.lookup p = disk.lookup p) → D disk log → D disk' log

section Rules
variable {env : Env} {D D' : Cond} {E : World → Prop} {path source target : Path}

theorem triple_writeFile (hD : D.Ignores path) (hE : ∀ w, on D w → E w) :
    Triple env (on D) (writeFile path bytes)
      (fun _ => on fun disk log => D disk log ∧ disk.lookup path = some (.file bytes)) E := by
  apply Triple.bind triple_ask
  intro fault
  apply Triple.bind_current
  intro w hw
  split
  · exact Triple.fail_at (hE w hw)
  · exact Triple.fail_at (hE w hw)
  · rename_i name dir
    split
    · rename_i hd
      split
      · rename_i hf
        have hput (bytes : List UInt8) : D (w.disk.put name dir bytes hd hf) w.log :=
          hD (fun p hp => Tree.lookup_put_of_ne hd hf hp) hw
        let same (s : World) : Prop := s.disk = w.disk ∧ s.log = w.log
        apply Triple.bind (Q := fun _ => same)
        · rintro s rfl
          exact ⟨rfl, rfl⟩
        intro failing
        apply Triple.bind (Q := fun _ => same)
        · exact fun s hs => hs
        intro kept
        cases failing with
        | none =>
          apply Triple.update
          intro s hs
          obtain ⟨tick, disk, log⟩ := s
          obtain rfl : log = w.log := hs.2
          exact ⟨hput bytes, Tree.lookup_put_self hd hf⟩
        | some reason =>
          apply Triple.bind (Q := fun _ => E)
          · apply Triple.update
            intro s hs
            obtain ⟨tick, disk, log⟩ := s
            obtain rfl : log = w.log := hs.2
            exact hE _ (hput _)
          · exact fun _ => Triple.fail fun s hs => hs
      · exact Triple.fail_at (hE w hw)
    · split <;> exact Triple.fail_at (hE w hw)

theorem triple_readFile (hE : ∀ w, on D w → E w) :
    Triple env (on D) (readFile path)
      (fun bytes => on fun disk log => D disk log ∧ disk.lookup path = some (.file bytes)) E := by
  apply triple_call hE
  intro w hw
  split
  · exact Triple.fail_at (hE w hw)
  · exact Triple.fail_at (hE w hw)
  · rename_i bytes hfile
    apply Triple.pure
    rintro s rfl
    exact ⟨hw, hfile⟩

theorem triple_renameFile (hfile : ∀ disk log, D disk log → disk.lookup source = some (.file bytes))
    (hmoved : ∀ {disk disk' log}, D disk log → disk'.lookup target = some (.file bytes) →
      (∀ p, p ≠ target → p ≠ source → disk'.lookup p = disk.lookup p) → D' disk' log)
    (hE : ∀ w, on D w → E w) :
    Triple env (on D) (renameFile source target) (fun _ => on D') E := by
  apply triple_call hE
  intro w hw
  split
  case h_1 => exact Triple.fail_at (hE w hw)
  case h_2 => exact Triple.fail_at (hE w hw)
  case h_3 bytes' hsource =>
    obtain rfl : bytes' = bytes := by
      have hsame := hsource.symm.trans (hfile w.disk w.log hw)
      exact Node.file.inj (Option.some.inj hsame)
    split
    · exact Triple.fail_at (hE w hw)
    · rename_i name dir
      split
      · rename_i hd
        split
        · rename_i hf
          rintro s rfl
          apply hmoved hw (Tree.lookup_put_self hd hf)
          intro p hp hp'
          rw [Tree.lookup_put_of_ne hd hf hp, Tree.lookup_removeFile_of_ne hsource hp']
        · exact Triple.fail_at (hE w hw)
      · exact Triple.fail_at (hE w hw)

end Rules

section Runs
variable {env : Env} {w : World} {path dir : Path}

theorem lift_mapError_eq_ok {x : Except ε α} {g : ε → Failure}
    (h : (lift (x.mapError g) : Run α) env w = (.ok a, w')) : x = .ok a ∧ w' = w := by
  obtain ⟨hx, rfl⟩ := Prod.mk.inj h
  exact ⟨Fallible.mapError_eq_ok hx, rfl⟩

theorem withContext_run_disk (x : Run α) : (withContext message x env w).2 = (x env w).2 := by
  rw [withContext, mapFailure]
  split
  · rename_i hx
    rw [hx]
  · rename_i hx
    rw [hx]

theorem fileExists_run : fileExists path env w =
    (.ok (!env.statFails w.tick && (w.disk.lookup path).isSome), { w with tick := w.tick + 1 }) :=
  rfl

theorem readToString_run (hio : env.ioFault w.tick = none)
    (hfile : w.disk.lookup path = some (.file bytes)) (htext : Text.ofUtf8 bytes = some text) :
    readToString path env w = (.ok text, { w with tick := w.tick + 1 }) := by
  have hcall : syscall env w = (.ok (), { w with tick := w.tick + 1 }) := by
    rw [syscall, bind_run_ok (ask_run _), hio]
    rfl
  have hnow : (current : Run World) env { w with tick := w.tick + 1 } =
      (.ok { w with tick := w.tick + 1 }, { w with tick := w.tick + 1 }) := rfl
  rw [readToString, bind_run_ok hcall, bind_run_ok hnow]
  simp only [hfile, htext]
  rfl

theorem readToString_eq_ok (h : readToString path env w = (.ok text, w')) :
    w'.disk = w.disk ∧
      ∃ bytes, w.disk.lookup path = some (.file bytes) ∧ Text.ofUtf8 bytes = some text := by
  have hpost : Post _ _ (readToString path env w) :=
    triple_readToString (D := fun disk _ => disk = w.disk) (E := fun _ => True)
      (fun _ _ => trivial) w rfl
  rw [h] at hpost
  obtain ⟨hdisk, bytes, hfile, htext⟩ := hpost
  exact ⟨hdisk, bytes, hdisk ▸ hfile, htext⟩

theorem writeFile_refused (h : env.ioFault w.tick = some reason) :
    writeFile path bytes env w = (.error (.error [reason]), { w with tick := w.tick + 1 }) := by
  rw [writeFile, bind_run_ok (ask_run _), h]
  rfl

theorem lookup_writeFile (h : env.ioFault w.tick = none) (hd : w.disk.IsDir dir)
    (hf : w.disk.lookup (name :: dir) ≠ some .dir) :
    (writeFile (name :: dir) bytes env w).2.disk.lookup (name :: dir) =
      some (.file (if env.ioFault (w.tick + 1) = none then bytes
        else bytes.take (env.torn (w.tick + 2)))) := by
  rw [writeFile, bind_run_ok (ask_run _), h]
  change ((dite _ _ _ : Run Unit) env _).2.disk.lookup _ = _
  rw [dif_pos hd, dif_pos hf, bind_run_ok (ask_run _), bind_run_ok (ask_run _)]
  cases hw : env.ioFault (w.tick + 1) with
  | none =>
    rw [if_pos rfl]
    exact Tree.lookup_put_self hd hf
  | some reason =>
    rw [if_neg (Option.some_ne_none reason)]
    exact Tree.lookup_put_self hd hf

end Runs

end TokenPumper
