import Mathlib.Data.Set.Insert
import Oxmux.Deploy.Deployer

/-! What `deploy_via_ssh` leaves on the disk. The temporary files are removed in
one place, and many ends of the function lie before it. -/

namespace Oxmux.Deploy
open Oxmux.Lib Oxmux.Session Steps

/-! ## The files of a run -/

/-- The paths where a run's files lie. -/
def written (run : Nat) (files : Files) : Set Text :=
  {path | ∃ file, files path = some file ∧ file.writer = some run}

section
variable {run : Nat} {files : Files} {path : Text} {content : Bytes}

@[simp] theorem written_ofDisk (run : Nat) (disk : Text → Option Bytes) :
    written run (.ofDisk disk) = ∅ := by
  ext path
  simp only [written, Files.ofDisk, Set.mem_ofPred_eq, Set.mem_empty_iff_false, iff_false,
    Option.map_eq_some_iff]
  rintro ⟨file, ⟨content, -, rfl⟩, hwriter⟩
  cases hwriter

theorem mem_written_change (c : Change) (q : Text) :
    q ∈ written run (files.change run c) ↔
      if q = c.path then c.content.isSome = true else q ∈ written run files := by
  by_cases hq : q = c.path
  · subst hq
    cases hc : c.content with
    | none => simp [written, Files.change, hc]
    | some content => simp [written, Files.change, hc]
  · simp [written, Files.change, hq]

theorem written_write (run : Nat) (files : Files) (path : Text) (content : Bytes) :
    written run (files.change run { path, content := some content }) =
      insert path (written run files) := by
  ext q
  rw [mem_written_change, Set.mem_insert_iff]
  by_cases hq : q = path <;> simp [hq]

/-- A removal that works takes its path away, and no other. -/
theorem mem_written_removed (ok : Bool) (path q : Text) :
    q ∈ written run (files.changeAll run (removed ok path)) ↔
      q ∈ written run files ∧ ¬ (ok ∧ q = path) := by
  cases ok with
  | true =>
    simp only [removed, Files.changeAll, if_true, List.foldl_cons, List.foldl_nil,
      mem_written_change]
    by_cases hq : q = path <;> simp [hq]
  | false => simp [removed, Files.changeAll]

end

/-! ## The way through the function -/

section
variable (p : Process) (run : Nat) (env : Env) (args : Args) (files : Files)

/-- The key file and the passphrase, if the session has a key that is encrypted. -/
def toConvert : Option (Text × Text) :=
  match args.auth with
  | .privateKey path passphrase =>
    if isEncrypted (env.keyContent files (p.expand path)) then
      some (p.expand path, passphrase.getD [])
    else none
  | _ => none

/-- The session's own key file, or no path. -/
def ownKey : Text :=
  match args.auth with
  | .privateKey path _ => p.expand path
  | _ => []

theorem exec_scpKey_none (h : toConvert p env args files = none) :
    exec (scpKey p run env args) files = (.ok (ownKey p args, none), files) := by
  unfold toConvert at h
  unfold scpKey ownKey
  cases hauth : args.auth with
  | privateKey path passphrase =>
    simp only [hauth, ite_eq_right_iff, reduceCtorEq, imp_false] at h
    simp [privateKey, h]
  | agent => rfl
  | password password => rfl
  | uploadedKey keyId passphrase => rfl

theorem exec_scpKey_some {expanded pass : Text}
    (h : toConvert p env args files = some (expanded, pass)) :
    exec (scpKey p run env args) files = exec (convertKey p run env expanded pass) files := by
  unfold toConvert at h
  unfold scpKey
  cases hauth : args.auth with
  | privateKey path passphrase =>
    simp only [hauth, Option.ite_none_right_eq_some, Option.some.injEq, Prod.mk.injEq] at h
    obtain ⟨henc, rfl, rfl⟩ := h
    simp [privateKey, henc]
  | agent => simp [hauth] at h
  | password password => simp [hauth] at h
  | uploadedKey keyId passphrase => simp [hauth] at h

theorem exec_convertKey (expanded pass : Text) :
    exec (convertKey p run env expanded pass) files =
      (match env.openssl (opensslArgs expanded p.tmpKey pass) with
        | .ok (.key _) => .ok (p.tmpKey, some p.tmpKey)
        | .ok (.failed _) => .error "failed to convert encrypted key for scp".toList
        | .error e => .error e,
        files.changeAll run (keyWritten p (env.openssl (opensslArgs expanded p.tmpKey pass)))) := by
  unfold convertKey
  cases env.openssl (opensslArgs expanded p.tmpKey pass) with
  | error e => rfl
  | ok converted => cases converted <;> rfl

/-- The upload ends before the removal, or goes through it. -/
theorem exec_upload (keyPath : Text) (tmpKeyPath : Option Text) :
    (exec (upload p run env args keyPath tmpKeyPath) files).2 =
      if (env.scp (scpArgs args keyPath p.tmpPath)).isOk then
        (exec (removeTmpKey run env tmpKeyPath)
          (files.changeAll run (removed env.removeBinary p.tmpPath))).2
      else files := by
  unfold upload
  cases hscp : env.scp (scpArgs args keyPath p.tmpPath) with
  | error e => simp [Except.mapError, Except.isOk, Except.toBool]
  | ok output =>
    cases tmpKeyPath <;>
      simp [Except.mapError, Except.isOk, Except.toBool, removeTmpKey, change,
        install_keeps env args output _]

end

/-! ## When nothing is left -/

section
variable {p : Process} {run : Nat} {env : Env} {args : Args} {files : Files}

/-- The files of a run behind its upload, by the steps that could remove them. -/
theorem mem_written_upload (keyPath : Text) (tmpKeyPath : Option Text) (q : Text) :
    q ∈ written run (exec (upload p run env args keyPath tmpKeyPath) files).2 ↔
      q ∈ written run files ∧ ¬ ((env.scp (scpArgs args keyPath p.tmpPath)).isOk ∧
        (env.removeBinary ∧ q = p.tmpPath ∨ env.removeKey ∧ some q = tmpKeyPath)) := by
  rw [exec_upload]
  by_cases hscp : (env.scp (scpArgs args keyPath p.tmpPath)).isOk
  · cases tmpKeyPath with
    | none => simp [hscp, removeTmpKey, mem_written_removed]
    | some tmpKey => simp [hscp, removeTmpKey, change, mem_written_removed, and_assoc]
  · simp [hscp]

theorem upload_own (hw : written run files = {p.tmpPath}) (keyPath : Text) :
    written run (exec (upload p run env args keyPath none) files).2 = ∅ ↔
      (env.scp (scpArgs args keyPath p.tmpPath)).isOk ∧ env.removeBinary := by
  simp [Set.eq_empty_iff_forall_notMem, mem_written_upload, hw]

theorem upload_converted (hw : written run files = {p.tmpKey, p.tmpPath}) (keyPath : Text) :
    written run (exec (upload p run env args keyPath (some p.tmpKey)) files).2 = ∅ ↔
      (env.scp (scpArgs args keyPath p.tmpPath)).isOk ∧ env.removeBinary ∧ env.removeKey := by
  have hne := p.tmpKey_ne_tmpPath
  simp only [Set.eq_empty_iff_forall_notMem, mem_written_upload, hw, Set.mem_insert_iff,
    Set.mem_singleton_iff, Option.some.injEq, not_and_not_right]
  constructor
  · intro h
    have htmp := h p.tmpPath (.inr rfl)
    have hkey := h p.tmpKey (.inl rfl)
    simp only [hne.symm, and_true, and_false, or_false] at htmp
    simp only [hne, and_true, and_false, false_or] at hkey
    exact ⟨htmp.1, htmp.2, hkey.2⟩
  · rintro ⟨hscp, hbinary, hkey⟩ q (rfl | rfl)
    · exact ⟨hscp, .inr ⟨hkey, rfl⟩⟩
    · exact ⟨hscp, .inl ⟨hbinary, rfl⟩⟩

/-! ## Every end of the function -/

variable (p run env args files)

/-- Behind the copy of the binary: the conversion, if there is one, goes well,
scp is started, and every removal works. -/
def CleansKey : Prop :=
  match toConvert p env args files with
  | some (expanded, pass) =>
    (∃ content, env.openssl (opensslArgs expanded p.tmpKey pass) = .ok (.key content)) ∧
      (env.scp (scpArgs args p.tmpKey p.tmpPath)).isOk ∧ env.removeBinary ∧ env.removeKey
  | none => (env.scp (scpArgs args (ownKey p args) p.tmpPath)).isOk ∧ env.removeBinary

/-- The run ends before it writes a file, or reaches the removal of all that it
has written. -/
def CleansUp : Prop :=
  ∀ path data, p.findAgentBinary files = .ok path → env.binaryData files path = .ok data →
    env.writeBinary = .failed none ∨ env.writeBinary = .done ∧
      CleansKey p env args (files.change run { path := p.tmpPath, content := some data })

variable {p run env args files}

theorem convert_clean_iff (hw : written run files = {p.tmpPath}) (expanded pass : Text) :
    written run (andThen (exec (convertKey p run env expanded pass) files)
        fun key => upload p run env args key.1 key.2).2 = ∅ ↔
      (∃ content, env.openssl (opensslArgs expanded p.tmpKey pass) = .ok (.key content)) ∧
        (env.scp (scpArgs args p.tmpKey p.tmpPath)).isOk ∧ env.removeBinary ∧ env.removeKey := by
  rw [exec_convertKey]
  cases hssl : env.openssl (opensslArgs expanded p.tmpKey pass) with
  | error e => simp [keyWritten, Files.changeAll, hw]
  | ok converted =>
    cases converted with
    | key content =>
      have hw' : written run (files.change run { path := p.tmpKey, content := some content }) =
          {p.tmpKey, p.tmpPath} := by
        rw [written_write, hw]
      simpa [keyWritten, Files.changeAll] using upload_converted hw' p.tmpKey
    | failed left =>
      cases left with
      | none => simp [keyWritten, Files.changeAll, hw]
      | some part => simp [keyWritten, Files.changeAll, written_write,
          (Set.insert_nonempty _ _).ne_empty]

theorem key_clean_iff (hw : written run files = {p.tmpPath}) :
    written run (andThen (exec (scpKey p run env args) files)
        fun key => upload p run env args key.1 key.2).2 = ∅ ↔
      CleansKey p env args files := by
  unfold CleansKey
  cases hkey : toConvert p env args files with
  | some found =>
    rw [exec_scpKey_some p run env args files hkey]
    exact convert_clean_iff hw found.1 found.2
  | none =>
    rw [exec_scpKey_none p run env args files hkey]
    exact upload_own hw _

theorem cleansUp_iff {path : Text} {data : Bytes} (hfind : p.findAgentBinary files = .ok path)
    (hdata : env.binaryData files path = .ok data) :
    CleansUp p run env args files ↔ env.writeBinary = .failed none ∨ env.writeBinary = .done ∧
      CleansKey p env args (files.change run { path := p.tmpPath, content := some data }) := by
  refine ⟨fun h => h path data hfind hdata, fun h path' data' hfind' hdata' => ?_⟩
  cases hfind.symm.trans hfind'
  cases hdata.symm.trans hdata'
  exact h

/-- The files behind the first part of the function, where that goes well. -/
theorem exec_deploy {path : Text} {data : Bytes} (hfind : p.findAgentBinary files = .ok path)
    (hdata : env.binaryData files path = .ok data) :
    exec (deployViaSsh p run env args) files =
      if env.writeBinary = .done then
        andThen (exec (scpKey p run env args) (files.changeAll run (env.binaryWritten p data)))
          fun key => upload p run env args key.1 key.2
      else (.error "failed to write temp agent binary".toList,
        files.changeAll run (env.binaryWritten p data)) := by
  unfold deployViaSsh
  simp only [exec_bind, exec_get, andThen_ok, exec_liftExcept, hfind, hdata, change, exec_modify,
    exec_ensure]
  split
  · rw [andThen_ok, exec_bind]
  · rfl

/-- Whatever lay on the disk, a deployment leaves none of its files behind
exactly if it ends before its first write or reaches every removal it needs. -/
theorem deploy_clean_iff (p : Process) (run : Nat) (env : Env) (args : Args)
    (disk : Text → Option Bytes) :
    written run (exec (deployViaSsh p run env args) (.ofDisk disk)).2 = ∅ ↔
      CleansUp p run env args (.ofDisk disk) := by
  have hw := written_ofDisk run disk
  generalize Files.ofDisk disk = files at hw ⊢
  cases hfind : p.findAgentBinary files with
  | error e => simp [deployViaSsh, CleansUp, hfind, hw]
  | ok path =>
    cases hdata : env.binaryData files path with
    | error e =>
      refine iff_of_true (by simp [deployViaSsh, hfind, hdata, hw])
        fun path' data hfind' hdata' => ?_
      cases hfind.symm.trans hfind'
      cases hdata.symm.trans hdata'
    | ok data =>
      rw [exec_deploy hfind hdata, cleansUp_iff hfind hdata]
      cases hwrite : env.writeBinary with
      | failed left =>
        cases left with
        | none => simp [Env.binaryWritten, hwrite, Files.changeAll, hw]
        | some part => simp [Env.binaryWritten, hwrite, Files.changeAll, written_write,
          (Set.insert_nonempty _ _).ne_empty]
      | done =>
        have hw' : written run (files.change run { path := p.tmpPath, content := some data }) =
            {p.tmpPath} := by
          rw [written_write, hw, insert_empty_eq]
        simpa [Env.binaryWritten, hwrite, Files.changeAll] using key_clean_iff hw'

end

/-- Where scp cannot be started, the key without encryption stays. -/
theorem scp_not_started_leaves_key : ¬ ∀ p run env args disk,
    written run (exec (deployViaSsh p run env args) (.ofDisk disk)).2 = ∅ := by
  intro h
  have hkey : Process.sample.tmpKey ∈ written 0
      (exec (deployViaSsh .sample 0 { Env.working [2] with scp := fun _ => .error [] }
        (.sample "/keys/a".toList)) (.ofDisk sampleDisk)).2 :=
    ⟨{ content := [2], writer := some 0 }, rfl, rfl⟩
  rw [h] at hkey
  exact hkey

end Oxmux.Deploy
