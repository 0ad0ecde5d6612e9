import Oxmux.Deploy.Deployer
import Oxmux.Lib.Threads

/-! Deployments that run at once in one server process. Every file or process
step is one step of the machine, and between two of them other runs may take
theirs. All runs use the same two temporary files. -/

namespace Oxmux.Deploy
open Oxmux.Lib Oxmux.Lib.Runs Oxmux.Session Steps

/-! ## One run, step by step -/

/-- The key file that scp is given. -/
inductive KeyFile where
  | none
  | own (path : Text)
  | converted (key : Bytes)

def KeyFile.path (p : Process) : KeyFile → Text
  | none => []
  | own path => path
  | converted _ => p.tmpKey

def KeyFile.tmpPath (p : Process) : KeyFile → Option Text
  | converted _ => some p.tmpKey
  | _ => Option.none

/-- A run of `deploy_via_ssh`, by what it does next, with the binary that it has
written as long as it has still to upload it. -/
inductive Progress where
  | start
  | writeBinary (data : Bytes)
  | readKey (data : Bytes) (expanded pass : Text)
  | convert (data : Bytes) (expanded pass : Text)
  | chmod (data key : Bytes)
  | scp (data : Bytes) (key : KeyFile)
  | scpUpload (data : Bytes) (key : KeyFile) (output : ScpOutput)
  | removeBinary (key : KeyFile) (output : ScpOutput)
  | removeKey (output : ScpOutput)
  | install
  | startService (installResult : Text)
  | done (result : Except Text DeployResult)

namespace Progress
variable (p : Process) (env : Env) (args : Args) (files : Files)

def changes : Progress → List Change
  | writeBinary data => env.binaryWritten p data
  | convert _ expanded pass => keyWritten p (env.openssl (opensslArgs expanded p.tmpKey pass))
  | removeBinary _ _ => Deploy.removed env.removeBinary p.tmpPath
  | removeKey _ => Deploy.removed env.removeKey p.tmpKey
  | _ => []

/-- Behind the removal of the temporary files. -/
def removed (output : ScpOutput) : Progress :=
  if output.success then install
  else done (.error ("scp failed: ".toList ++ trim (Utf8.lossy output.stderr)))

def next : Progress → Progress
  | start =>
    match p.findAgentBinary files with
    | .error e => done (.error e)
    | .ok path =>
      match env.binaryData files path with
      | .error e => done (.error e)
      | .ok data => writeBinary data
  | writeBinary data =>
    match env.writeBinary, args.auth with
    | .failed _, _ => done (.error "failed to write temp agent binary".toList)
    | .done, .privateKey path passphrase => readKey data (p.expand path) (passphrase.getD [])
    | .done, _ => scp data .none
  | readKey data expanded pass =>
    if isEncrypted (env.keyContent files expanded) then convert data expanded pass
    else scp data (.own expanded)
  | convert data expanded pass =>
    match env.openssl (opensslArgs expanded p.tmpKey pass) with
    | .error e => done (.error e)
    | .ok (.failed _) => done (.error "failed to convert encrypted key for scp".toList)
    | .ok (.key key) => chmod data key
  | chmod data key => scp data (.converted key)
  | scp data key =>
    match env.scp (scpArgs args (key.path p) p.tmpPath) with
    | .error _ => done (.error "scp command failed".toList)
    | .ok output => scpUpload data key output
  | scpUpload _ key output => removeBinary key output
  | removeBinary (.converted _) output => removeKey output
  | removeBinary _ output => removed output
  | removeKey output => removed output
  | install =>
    match env.exec installCmd with
    | .error e => done (.error e)
    | .ok installResult => startService installResult
  | startService installResult => done (exec (Deploy.startService env args installResult) files).1
  | done result => done result

/-- What comes after a step, with what the step took for it. -/
inductive Follows : Progress → Progress → Prop
  | ends (progress : Progress) (result : Except Text DeployResult) :
      Follows progress (done result)
  | found (data : Bytes) : Follows start (writeBinary data)
  | copied (data : Bytes) (expanded pass : Text) (h : env.writeBinary = .done) :
      Follows (writeBinary data) (readKey data expanded pass)
  | keyless (data : Bytes) (h : env.writeBinary = .done) :
      Follows (writeBinary data) (scp data .none)
  | encrypted (data : Bytes) (expanded pass : Text) :
      Follows (readKey data expanded pass) (convert data expanded pass)
  | plain (data : Bytes) (expanded pass : Text) :
      Follows (readKey data expanded pass) (scp data (.own expanded))
  | converted (data key : Bytes) (expanded pass : Text)
      (h : env.openssl (opensslArgs expanded p.tmpKey pass) = .ok (.key key)) :
      Follows (convert data expanded pass) (chmod data key)
  | chmod (data key : Bytes) : Follows (chmod data key) (scp data (.converted key))
  | scp (data : Bytes) (key : KeyFile) (output : ScpOutput) :
      Follows (scp data key) (scpUpload data key output)
  | scpUpload (data : Bytes) (key : KeyFile) (output : ScpOutput) :
      Follows (scpUpload data key output) (removeBinary key output)
  | removeKey (key : Bytes) (output : ScpOutput) :
      Follows (removeBinary (.converted key) output) (removeKey output)
  | removedBinary (key : KeyFile) (output : ScpOutput) : Follows (removeBinary key output) install
  | removedKey (output : ScpOutput) : Follows (removeKey output) install
  | installed (installResult : Text) : Follows install (startService installResult)

theorem follows (progress : Progress) :
    Follows p env progress (progress.next p env args files) := by
  cases progress with
  | start =>
    simp only [next]
    split
    · exact .ends _ _
    · split
      · exact .ends _ _
      · exact .found _
  | writeBinary data =>
    simp only [next]
    split
    · exact .ends _ _
    · exact .copied _ _ _ ‹_›
    · exact .keyless _ ‹_›
  | readKey data expanded pass =>
    simp only [next]
    split
    · exact .encrypted _ _ _
    · exact .plain _ _ _
  | convert data expanded pass =>
    simp only [next]
    split
    · exact .ends _ _
    · exact .ends _ _
    · exact .converted _ _ _ _ ‹_›
  | chmod data key => exact .chmod _ _
  | scp data key =>
    simp only [next]
    split
    · exact .ends _ _
    · exact .scp _ _ _
  | scpUpload data key output => exact .scpUpload _ _ _
  | removeBinary key output =>
    have hremoved : Follows p env (removeBinary key output) (removed output) := by
      unfold removed
      split
      · exact .removedBinary _ _
      · exact .ends _ _
    cases key with
    | converted key => exact .removeKey _ _
    | none => exact hremoved
    | own path => exact hremoved
  | removeKey output =>
    simp only [next, removed]
    split
    · exact .removedKey _
    · exact .ends _ _
  | install =>
    simp only [next]
    split
    · exact .ends _ _
    · exact .installed _
  | startService installResult => exact .ends _ _
  | done result => exact .ends _ _

/-- What is left of the function. -/
def rest (run : Nat) : Progress → Steps Text Files DeployResult
  | start => deployViaSsh p run env args
  | writeBinary data => do
    change run (env.binaryWritten p data)
    ensure (env.writeBinary = .done) "failed to write temp agent binary".toList
    let key ← scpKey p run env args
    upload p run env args key.1 key.2
  | readKey _ expanded pass => do
    let key ← privateKey p run env expanded pass
    upload p run env args key.1 key.2
  | convert _ expanded pass => do
    let key ← convertKey p run env expanded pass
    upload p run env args key.1 key.2
  | chmod _ _ => upload p run env args p.tmpKey (some p.tmpKey)
  | scp _ key => upload p run env args (key.path p) (key.tmpPath p)
  | scpUpload _ key output | removeBinary key output => do
    change run (Deploy.removed env.removeBinary p.tmpPath)
    removeTmpKey run env (key.tmpPath p)
    Deploy.install env args output
  | removeKey output => do
    change run (Deploy.removed env.removeKey p.tmpKey)
    Deploy.install env args output
  | install => do
    let installResult ← liftExcept (env.exec installCmd)
    Deploy.startService env args installResult
  | startService installResult => Deploy.startService env args installResult
  | done result => liftExcept result

theorem exec_rest_removed (run : Nat) (output : ScpOutput) :
    exec (rest p env args run (removed output)) files =
      exec (Deploy.install env args output) files := by
  unfold removed Deploy.install
  by_cases hs : output.success
  · rw [if_pos hs, exec_bind, exec_ensure, if_pos hs]
    rfl
  · rw [if_neg hs, exec_bind, exec_ensure, if_neg hs]
    rfl

/-- A step does what comes first in what is left of the function. -/
theorem exec_rest_next (run : Nat) (progress : Progress) :
    exec (rest p env args run (progress.next p env args files))
        (files.changeAll run (progress.changes p env)) =
      exec (rest p env args run progress) files := by
  cases progress with
  | start =>
    simp only [next, rest, deployViaSsh, changes, Files.changeAll, List.foldl_nil, exec_bind,
      exec_get, andThen_ok, exec_liftExcept]
    cases p.findAgentBinary files with
    | error e => simp
    | ok path => cases hdata : env.binaryData files path <;> simp [hdata]
  | writeBinary data =>
    simp only [next, rest, changes, change, exec_bind, exec_modify, andThen_ok, exec_ensure]
    cases env.writeBinary with
    | failed left => rfl
    | done =>
      unfold scpKey
      cases args.auth <;> rfl
  | readKey data expanded pass =>
    simp only [next, rest, privateKey, changes, Files.changeAll, List.foldl_nil, exec_bind,
      exec_get, andThen_ok]
    by_cases henc : isEncrypted (env.keyContent files expanded) <;>
      simp [henc, KeyFile.path, KeyFile.tmpPath]
  | convert data expanded pass =>
    simp only [next, rest, convertKey, changes, change, exec_bind, exec_modify, andThen_ok,
      exec_liftExcept]
    cases env.openssl (opensslArgs expanded p.tmpKey pass) with
    | error e => rfl
    | ok converted => cases converted <;> rfl
  | chmod data key => rfl
  | scp data key =>
    simp only [next, rest, upload, changes, Files.changeAll, List.foldl_nil, exec_bind,
      exec_liftExcept]
    cases env.scp (scpArgs args (key.path p) p.tmpPath) <;> rfl
  | scpUpload data key output => rfl
  | removeBinary key output =>
    simp only [rest, changes, change, exec_bind, exec_modify, andThen_ok]
    cases key with
    | converted key => rfl
    | none => exact exec_rest_removed p env args _ run output
    | own path => exact exec_rest_removed p env args _ run output
  | removeKey output =>
    simp only [rest, changes, change, exec_bind, exec_modify, andThen_ok]
    exact exec_rest_removed p env args _ run output
  | install =>
    simp only [next, rest, changes, Files.changeAll, List.foldl_nil, exec_bind, exec_liftExcept]
    cases env.exec installCmd <;> rfl
  | startService installResult =>
    simp only [next, rest, changes, Files.changeAll, List.foldl_nil, exec_liftExcept]
    exact Prod.ext rfl (startService_keeps env args installResult files).symm
  | done result => rfl

def stepsLeft : Progress → Nat
  | start => 11
  | writeBinary _ => 10
  | readKey _ _ _ => 9
  | convert _ _ _ => 8
  | chmod _ _ => 7
  | scp _ _ => 6
  | scpUpload _ _ _ => 5
  | removeBinary _ _ => 4
  | removeKey _ => 3
  | install => 2
  | startService _ => 1
  | done _ => 0

theorem stepsLeft_next (progress : Progress) :
    (progress.next p env args files).stepsLeft ≤ progress.stepsLeft - 1 := by
  have h := follows p env args files progress
  generalize progress.next p env args files = next at h
  cases h with
  | ends => exact Nat.zero_le _
  | _ => simp [stepsLeft]

end Progress

/-! ## What a run needs of a file -/

/-- What has to lie at a path: a file that no run has written, or one with a
content that the run has written. -/
inductive Need where
  | own
  | exactly (content : Bytes)
  deriving DecidableEq

def Need.Met : Need → Option File → Prop
  | own, file => ∀ f ∈ file, f.writer = Option.none
  | exactly content, file => file.map (·.content) = some content

instance : (need : Need) → (file : Option File) → Decidable (need.Met file)
  | .own, file => inferInstanceAs (Decidable (∀ f ∈ file, f.writer = none))
  | .exactly content, file => inferInstanceAs (Decidable (file.map (·.content) = some content))

/-- Behind the change, the need is met at its path. -/
def Change.Spares (c : Change) (need : Text × Need) : Prop :=
  c.path = need.1 → c.content.map Need.exactly = some need.2

instance (c : Change) (need : Text × Need) : Decidable (c.Spares need) :=
  inferInstanceAs (Decidable (_ → _))

def KeyFile.needs (p : Process) : KeyFile → List (Text × Need)
  | none => []
  | own path => [(path, .own)]
  | converted key => [(p.tmpKey, .exactly key)]

namespace Progress
variable (p : Process) (env : Env)

/-- What a run still needs, of the files that it has written or is to read. -/
def needs : Progress → List (Text × Need)
  | readKey data _ _ => [(p.tmpPath, .exactly data)]
  | convert data expanded _ => [(p.tmpPath, .exactly data), (expanded, .own)]
  | chmod data key => [(p.tmpPath, .exactly data), (p.tmpKey, .exactly key)]
  | scp data key => (p.tmpPath, .exactly data) :: key.needs p
  | scpUpload data _ _ => [(p.tmpPath, .exactly data)]
  | _ => []

/-- The session's key is no file that a run has written. -/
def ReadsOwn (files : Files) : Progress → Prop
  | readKey _ expanded _ => Need.own.Met (files expanded)
  | _ => True

instance (files : Files) (progress : Progress) : Decidable (progress.ReadsOwn files) := by
  cases progress <;> unfold ReadsOwn <;> infer_instance

/-- What the next step hands to a command: to openssl the session's key, to scp
the key file and the binary. -/
def uses (args : Args) : Progress → List (Text × Need)
  | convert _ expanded pass =>
    if (env.openssl (opensslArgs expanded p.tmpKey pass)).isOk then [(expanded, .own)] else []
  | scp _ key =>
    if (env.scp (scpArgs args (key.path p) p.tmpPath)).isOk then key.needs p else []
  | scpUpload data _ _ => [(p.tmpPath, .exactly data)]
  | _ => []

end Progress

/-! ## The runs together -/

/-- A file that a command of a run was given. -/
structure Use where
  run : Nat
  need : Need
  file : Option File
  deriving DecidableEq

structure Disk where
  files : Files
  used : List Use

structure Deployer where
  args : Args
  progress : Progress

section
variable (p : Process)

def act (run : Nat) (env : Env) (disk : Disk) (d : Deployer) : Disk × Deployer :=
  ({ files := disk.files.changeAll run (d.progress.changes p env)
     used := disk.used ++ (d.progress.uses p env d.args).map fun need =>
       { run, need := need.2, file := disk.files need.1 } },
    { d with progress := d.progress.next p env d.args disk.files })

theorem rest_alone {env : Env} {run n : Nat} {s : Threads Disk Deployer} {d : Deployer}
    (hd : s.locals[run]? = some d) (hn : d.progress.stepsLeft ≤ n) :
    ∃ result, (Runs.run (Threads.step (act p)) s (List.replicate n (run, env))).locals[run]? =
        some { d with progress := .done result } ∧
      exec (d.progress.rest p env d.args run) s.shared.files =
        (result,
          (Runs.run (Threads.step (act p)) s (List.replicate n (run, env))).shared.files) := by
  induction n generalizing s d with
  | zero =>
    cases hp : d.progress with
    | done result => exact ⟨result, by simp [hd, ← hp], by simp [Progress.rest]⟩
    | _ => simp [hp, Progress.stepsLeft] at hn
  | succ n ih =>
    have hleft := d.progress.stepsLeft_next p env d.args s.shared.files
    have hstep : Threads.step (act p) s (run, env) = _ := Threads.step_some hd
    have hlt := (List.getElem?_eq_some_iff.mp hd).1
    have hd' : (Threads.step (act p) s (run, env)).locals[run]? =
        some { d with progress := d.progress.next p env d.args s.shared.files } := by
      rw [hstep]
      exact List.getElem?_set_self hlt
    obtain ⟨result, hlocals, hrest⟩ := ih hd' (hleft.trans (by omega))
    refine ⟨result, hlocals, ?_⟩
    rw [hstep] at hrest
    rw [List.replicate_succ, Runs.run_cons, hstep, ← hrest]
    exact (d.progress.exec_rest_next p env d.args s.shared.files run).symm

/-- A run that nobody disturbs does what the function does. -/
theorem run_alone {env : Env} {run : Nat} {s : Threads Disk Deployer} {args : Args}
    (hd : s.locals[run]? = some { args, progress := .start }) :
    ∃ result, (Runs.run (Threads.step (act p)) s (List.replicate 11 (run, env))).locals[run]? =
        some { args, progress := .done result } ∧
      exec (deployViaSsh p run env args) s.shared.files =
        (result, (Runs.run (Threads.step (act p)) s (List.replicate 11 (run, env))).shared.files) :=
  rest_alone p hd (le_refl 11)

/-- The secrets of the configuration that a deployment is given. -/
structure Config where
  jwtSecret : Text
  coturnSecret : Text
  coturnServers : Text

/-- The call that the background task of `InstallAgent` makes. -/
def Config.args (config : Config) (d : Ws.Deployment) : Args where
  host := d.host
  port := d.port
  user := d.user
  auth := d.auth
  agentSecret := config.jwtSecret
  coturnSecret := config.coturnSecret
  coturnServers := config.coturnServers
  quicPort := 4433

def started (config : Config) (disk : Text → Option Bytes) (deployments : List Ws.Deployment) :
    Threads Disk Deployer where
  shared := { files := .ofDisk disk, used := [] }
  locals := deployments.map fun d => { args := config.args d, progress := .start }

/-- Every command was given what its run needs. -/
def KeptApart (s : Threads Disk Deployer) : Prop :=
  ∀ use ∈ s.shared.used, use.need.Met use.file

/-- A step that leaves alone what the other runs still need, and reads no key
that a run has written. -/
def Considerate (s : Threads Disk Deployer) (pick : Nat × Env) : Prop :=
  ∀ d ∈ s.locals[pick.1]?,
    (∀ other ∈ s.locals.eraseIdx pick.1, ∀ need ∈ other.progress.needs p,
      ∀ c ∈ d.progress.changes p pick.2, c.Spares need) ∧
    d.progress.ReadsOwn s.shared.files

instance (s : Threads Disk Deployer) (pick : Nat × Env) : Decidable (Considerate p s pick) :=
  inferInstanceAs (Decidable (∀ d ∈ s.locals[pick.1]?, _))

/-! ## What a considerate run keeps -/

variable {p} {s : Threads Disk Deployer} {pick : Nat × Env}

/-- What the runs still need lies where it should, and what they used did. -/
structure Sound (p : Process) (s : Threads Disk Deployer) : Prop where
  needs : ∀ (j : Nat) (d : Deployer), s.locals[j]? = some d → ∀ need ∈ d.progress.needs p,
    need.2.Met (s.shared.files need.1)
  used : KeptApart s

theorem met_changeAll {run : Nat} {files : Files} {cs : List Change} {need : Text × Need}
    (hmet : need.2.Met (files need.1)) (hspares : ∀ c ∈ cs, c.Spares need) :
    need.2.Met (files.changeAll run cs need.1) := by
  induction cs generalizing files with
  | nil => exact hmet
  | cons c cs ih =>
    refine ih ?_ fun c' hc' => hspares c' (List.mem_cons_of_mem c hc')
    by_cases he : c.path = need.1
    · have hneed := hspares c List.mem_cons_self he
      cases hc : c.content with
      | none => rw [hc] at hneed; cases hneed
      | some content =>
        rw [hc, Option.map_some, Option.some.injEq] at hneed
        rw [← hneed, ← he]
        simp [Files.change, hc, Need.Met]
    · simpa [Files.change, Ne.symm he] using hmet

theorem uses_subset_needs (env : Env) (args : Args) (progress : Progress) :
    progress.uses p env args ⊆ progress.needs p := by
  intro need h
  cases progress with
  | convert data expanded pass =>
    simp only [Progress.uses] at h
    split at h
    · exact List.mem_cons_of_mem _ h
    · cases h
  | scp data key =>
    simp only [Progress.uses] at h
    split at h
    · exact List.mem_cons_of_mem _ h
    · cases h
  | scpUpload data key output => exact h
  | _ => cases h

/-- What a run needs next lies there once it has taken its step. -/
theorem needs_next {env : Env} {args : Args} {progress : Progress} {run : Nat} {files : Files}
    (hneeds : ∀ need ∈ progress.needs p, need.2.Met (files need.1))
    (hkey : progress.ReadsOwn files) :
    ∀ need ∈ (progress.next p env args files).needs p,
      need.2.Met (files.changeAll run (progress.changes p env) need.1) := by
  have h := progress.follows p env args files
  generalize progress.next p env args files = next at h
  intro need hmem
  cases h with
  | copied data expanded pass hwrite | keyless data hwrite =>
    cases List.mem_singleton.mp hmem
    simp [Progress.changes, Env.binaryWritten, hwrite, Files.changeAll, Files.change, Need.Met]
  | encrypted data expanded pass | plain data expanded pass =>
    obtain rfl | hmem := List.mem_cons.mp hmem
    · exact hneeds _ List.mem_cons_self
    · cases List.mem_singleton.mp hmem
      exact hkey
  | converted data key expanded pass hssl =>
    have hchange : Progress.changes p env (.convert data expanded pass) =
        [{ path := p.tmpKey, content := some key }] := by
      simp [Progress.changes, keyWritten, hssl]
    rw [hchange]
    obtain rfl | hmem := List.mem_cons.mp hmem
    · refine met_changeAll (hneeds _ List.mem_cons_self) fun c hc he => ?_
      cases List.mem_singleton.mp hc
      exact absurd he p.tmpKey_ne_tmpPath
    · cases List.mem_singleton.mp hmem
      simp [Files.changeAll, Files.change, Need.Met]
  | chmod data key => exact hneeds need hmem
  | scp data key output =>
    cases List.mem_singleton.mp hmem
    exact hneeds _ List.mem_cons_self
  | _ => cases hmem

theorem Sound.step (hs : Sound p s) (hc : Considerate p s pick) :
    Sound p (Threads.step (act p) s pick) := by
  cases hd : s.locals[pick.1]? with
  | none => rwa [Threads.step_none hd]
  | some d =>
    obtain ⟨hspares, hkey⟩ := hc d hd
    refine ⟨fun j other hj need hmem => ?_, fun use huse => ?_⟩
    · rw [Threads.step_some hd]
      rcases Threads.getElem?_step hd hj with ⟨rfl, rfl⟩ | ⟨he, hj⟩
      · exact needs_next (hs.needs _ d hd) hkey need hmem
      · have hother : other ∈ s.locals.eraseIdx pick.1 :=
          List.mem_eraseIdx_iff_getElem?.mpr ⟨j, he, hj⟩
        exact met_changeAll (hs.needs j other hj need hmem) (hspares other hother need hmem)
    · rw [Threads.step_some hd] at huse
      obtain huse | huse := List.mem_append.mp huse
      · exact hs.used use huse
      · obtain ⟨need, hneed, rfl⟩ := List.mem_map.mp huse
        exact hs.needs _ d hd need (uses_subset_needs pick.2 d.args d.progress hneed)

theorem sound_started (config : Config) (disk : Text → Option Bytes)
    (deployments : List Ws.Deployment) : Sound p (started config disk deployments) where
  needs j d hd need hmem := by
    simp only [started, List.getElem?_map, Option.map_eq_some_iff] at hd
    obtain ⟨deployment, -, rfl⟩ := hd
    cases hmem
  used use huse := by cases huse

/-- Where no step of any run writes other content to, or removes, a file that
another run still needs, and none reads a run's file as its session's key, every
command of every run is given the right files. -/
theorem considerate_runs_keep_apart (config : Config) (disk : Text → Option Bytes)
    (deployments : List Ws.Deployment) (picks : List (Nat × Env))
    (h : EachStep (Threads.step (act p)) (Considerate p) (started config disk deployments) picks) :
    Always (Threads.step (act p)) KeptApart (started config disk deployments) picks :=
  always_of_eachStep (I := Sound p) (sound_started config disk deployments)
    (fun _ _ => Sound.step) (fun _ hs => hs.used) h

end

/-- A deployment that two users start, each with a key of their own. -/
def sampleDeployment (key : Text) : Ws.Deployment where
  sessionId := key
  host := key
  port := 22
  user := "u".toList
  auth := .privateKey ("/keys/".toList ++ key) none

theorem considerate_runs_sample :
    let deployments := [sampleDeployment "a".toList, sampleDeployment "b".toList]
    let picks := List.replicate 11 (0, Env.working [10]) ++ List.replicate 11 (1, Env.working [11])
    EachStep (Threads.step (act .sample)) (Considerate .sample)
        (started ⟨[], [], []⟩ sampleDisk deployments) picks ∧
      Always (Threads.step (act .sample)) KeptApart (started ⟨[], [], []⟩ sampleDisk deployments)
        picks := by
  intro deployments picks
  have hpicks : EachStep (Threads.step (act .sample)) (Considerate .sample)
      (started ⟨[], [], []⟩ sampleDisk deployments) picks := by
    decide +kernel
  exact ⟨hpicks, considerate_runs_keep_apart _ _ _ _ hpicks⟩

/-- Where a second run converts its key before the first one has uploaded, the
first scp is given the key of the second session. -/
theorem scp_given_other_key : ¬ ∀ p config disk deployments picks,
    Always (Threads.step (act p)) KeptApart (started config disk deployments) picks := by
  intro h
  let deployments := [sampleDeployment "a".toList, sampleDeployment "b".toList]
  let picks := List.replicate 5 (0, Env.working [10]) ++ List.replicate 4 (1, Env.working [11]) ++
    [(0, Env.working [10])]
  have hlast := (h .sample ⟨[], [], []⟩ sampleDisk deployments picks).last
  have huse : (Runs.run (Threads.step (act .sample)) (started ⟨[], [], []⟩ sampleDisk deployments)
      picks).shared.used[2]? = some { run := 0, need := .exactly [10]
                                      file := some { content := [11], writer := some 1 } } := by
    decide +kernel
  have hmet := hlast _ (List.mem_of_getElem? huse)
  exact absurd hmet (by decide)

end Oxmux.Deploy
