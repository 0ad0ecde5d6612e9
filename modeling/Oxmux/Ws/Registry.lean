import Mathlib.Tactic.Tauto
import Oxmux.Lib.AnyOrder
import Oxmux.Ws.SessionHandler

/-! The agent registry over its whole history (`server/src/agent/registry.rs`).
It is keyed by the agents' ids and asked for their hosts, and its map is
iterated in no fixed order. -/

namespace Oxmux.Ws
open Oxmux.Lib Oxmux.Session

def AgentRegistry.unregister (id : Text) (r : AgentRegistry) : AgentRegistry :=
  r.filter (·.id ≠ id)

def AgentInfo.seen (id : Text) (timestamp : Nat) (agent : AgentInfo) : AgentInfo :=
  if agent.id = id then { agent with lastSeen := timestamp } else agent

def AgentRegistry.updateHeartbeat (id : Text) (timestamp : Nat) (r : AgentRegistry) :
    AgentRegistry :=
  r.map (·.seen id timestamp)

inductive RegistryCall where
  | register (agent : AgentInfo)
  | unregister (id : Text)
  | updateHeartbeat (id : Text) (timestamp : Nat)
  deriving DecidableEq

def AgentRegistry.apply (r : AgentRegistry) : RegistryCall → AgentRegistry
  | .register agent => r.register agent
  | .unregister id => r.unregister id
  | .updateHeartbeat id timestamp => r.updateHeartbeat id timestamp

/-- The registry behind a history, by age. -/
def registry (calls : List RegistryCall) : AgentRegistry := calls.foldl AgentRegistry.apply []

/-- What a history says about a host, its newest call first: the entry that was
registered last for it, under an id that no newer call registers again or takes
away. -/
def latestFrom (host : Text) (gone : List Text) : List RegistryCall → Option AgentInfo
  | [] => none
  | .register agent :: older =>
    if agent.id ∈ gone then latestFrom host gone older
    else if agent.host = host then some agent
    else latestFrom host (agent.id :: gone) older
  | .unregister id :: older => latestFrom host (id :: gone) older
  | .updateHeartbeat id timestamp :: older =>
    (latestFrom host gone older).map (·.seen id timestamp)

/-- The most recently registered entry of a host that has not been unregistered. -/
def latest (host : Text) (calls : List RegistryCall) : Option AgentInfo :=
  latestFrom host [] calls.reverse

def agentsOf (host : Text) (r : AgentRegistry) : List AgentInfo := r.filter (·.host = host)

/-- In whatever order the map is iterated, the latest entry of the host is found. -/
def FindsLatest (host : Text) (calls : List RegistryCall) : Prop :=
  ∀ order : AgentRegistry, order.Perm (registry calls) → order.findByHost host = latest host calls

/-! ## The registry and its history -/

@[simp] theorem seen_id (id : Text) (timestamp : Nat) (agent : AgentInfo) :
    (agent.seen id timestamp).id = agent.id := by
  unfold AgentInfo.seen
  split <;> rfl

@[simp] theorem seen_host (id : Text) (timestamp : Nat) (agent : AgentInfo) :
    (agent.seen id timestamp).host = agent.host := by
  unfold AgentInfo.seen
  split <;> rfl

theorem registry_concat (calls : List RegistryCall) (call : RegistryCall) :
    registry (calls ++ [call]) = (registry calls).apply call := by
  simp [registry]

/-- An id is registered once. -/
theorem nodup_registry (calls : List RegistryCall) : ((registry calls).map (·.id)).Nodup := by
  induction calls using List.reverseRecOn with
  | nil => simp [registry]
  | append_singleton calls call ih =>
    rw [registry_concat]
    cases call with
    | register agent =>
      simp only [AgentRegistry.apply, AgentRegistry.register, List.map_append, List.map_singleton]
      rw [List.nodup_append]
      refine ⟨ih.sublist (List.filter_sublist.map _), by simp, fun id hid id' hid' => ?_⟩
      obtain ⟨other, hother, rfl⟩ := List.mem_map.mp hid
      rw [List.mem_singleton.mp hid']
      simpa using (List.mem_filter.mp hother).2
    | unregister id => exact ih.sublist (List.filter_sublist.map _)
    | updateHeartbeat id timestamp =>
      have hids : ((registry calls).updateHeartbeat id timestamp).map (·.id) =
          (registry calls).map (·.id) := by
        simp [AgentRegistry.updateHeartbeat, Function.comp_def]
      exact hids ▸ ih

/-- The entries of a host that some ids do not take away. -/
def left (host : Text) (gone : List Text) (r : AgentRegistry) : List AgentInfo :=
  r.filter fun agent => agent.host = host ∧ agent.id ∉ gone

/-- Without an id, that id takes nothing away. -/
theorem left_unregister (host id : Text) (gone : List Text) (r : AgentRegistry) :
    left host gone (r.unregister id) = left host (id :: gone) r := by
  rw [left, left, AgentRegistry.unregister, List.filter_filter]
  refine List.filter_congr fun agent _ => ?_
  rw [Bool.eq_iff_iff]
  simp only [Bool.and_eq_true, decide_eq_true_eq, List.mem_cons, not_or]
  tauto

theorem left_updateHeartbeat (host id : Text) (timestamp : Nat) (gone : List Text)
    (r : AgentRegistry) : left host gone (r.updateHeartbeat id timestamp) =
      (left host gone r).map (·.seen id timestamp) := by
  rw [left, left, AgentRegistry.updateHeartbeat, List.filter_map]
  refine congrArg _ (List.filter_congr fun agent _ => ?_)
  simp

/-- An id that is gone already is taken away once. -/
theorem left_cons_of_mem {host id : Text} {gone : List Text} (h : id ∈ gone) (r : AgentRegistry) :
    left host (id :: gone) r = left host gone r := by
  refine List.filter_congr fun agent _ => ?_
  have hid : agent.id ∉ gone → agent.id ≠ id := fun hn he => hn (he ▸ h)
  rw [Bool.eq_iff_iff]
  simp only [decide_eq_true_eq, List.mem_cons, not_or]
  tauto

/-- **The history read from its end** gives the last entry of the host. -/
theorem latestFrom_reverse (host : Text) (gone : List Text) (calls : List RegistryCall) :
    latestFrom host gone calls.reverse = (left host gone (registry calls)).getLast? := by
  induction calls using List.reverseRecOn generalizing gone with
  | nil => rfl
  | append_singleton calls call ih =>
    rw [registry_concat, List.reverse_append, List.reverse_singleton, List.singleton_append]
    cases call with
    | register agent =>
      have happ : left host gone ((registry calls).register agent) =
          left host (agent.id :: gone) (registry calls) ++ left host gone [agent] := by
        rw [← left_unregister, left, left, left, AgentRegistry.register, List.filter_append]
        rfl
      rw [latestFrom, AgentRegistry.apply, happ]
      split
      · next hgone =>
        rw [ih, left_cons_of_mem hgone]
        simp [left, hgone]
      · next hgone =>
        split
        · next hhost => simp [left, hgone, hhost]
        · next hhost =>
          rw [ih]
          simp [left, hhost]
    | unregister id => rw [latestFrom, ih, AgentRegistry.apply, left_unregister]
    | updateHeartbeat id timestamp =>
      rw [latestFrom, ih, AgentRegistry.apply, left_updateHeartbeat, List.getLast?_map]

theorem latest_eq (host : Text) (calls : List RegistryCall) :
    latest host calls = (agentsOf host (registry calls)).getLast? := by
  rw [latest, latestFrom_reverse]
  simp [left, agentsOf]

/-! ## Upgrades -/

/-- A session on a host is told where the host's latest agent is. -/
def UpgradesToLatest (host : Text) (calls : List RegistryCall) : Prop :=
  ∀ (env : MsgEnv) (sessionId target token : Text) (s : AppState) (session : ManagedSession)
    (agent : AgentInfo), s.agentRegistry.Perm (registry calls) →
    s.sessionManager.get sessionId = some session → session.transport.backend.host = some host →
    env.agentToken = some token → latest host calls = some agent →
    transportUpgrade env sessionId target s = .transportUpgradeReady sessionId
      (agentDnsName env.agentDnsMap env.agentDnsDomain agent.host) agent.quicPort token
      (some target) agent.certHash

theorem FindsLatest.upgrades {host : Text} {calls : List RegistryCall}
    (h : FindsLatest host calls) : UpgradesToLatest host calls := by
  intro env sessionId target token s session agent hperm hget hhost htoken hlatest
  have hfind : s.agentRegistry.findByHost host = some agent := (h _ hperm).trans hlatest
  simp only [transportUpgrade, hget]
  cases hb : session.transport.backend with
  | ssh host' port user auth =>
    rw [hb] at hhost
    obtain rfl : host' = host := Option.some.inj hhost
    simp only [hfind, htoken]
  | agent host' port agentId =>
    rw [hb] at hhost
    obtain rfl : host' = host := Option.some.inj hhost
    simp only [hfind, htoken]
  | «local» =>
    rw [hb] at hhost
    cases hhost

/-- **When the latest registration is found**: exactly if the host has at most
one entry. Then an upgrade gives its port and its certificate's hash. -/
theorem finds_latest_iff (host : Text) (calls : List RegistryCall) :
    (FindsLatest host calls ↔ (agentsOf host (registry calls)).length ≤ 1) ∧
      ((agentsOf host (registry calls)).length ≤ 1 → UpgradesToLatest host calls) := by
  have hiff : FindsLatest host calls ↔ (agentsOf host (registry calls)).length ≤ 1 := by
    unfold FindsLatest
    rw [latest_eq]
    exact find?_any_order_iff (List.Nodup.of_map _ (nodup_registry calls))
  exact ⟨hiff, fun h => (hiff.mpr h).upgrades⟩

def sampleAgent (id certHash : Text) : AgentInfo where
  id
  hostname := "host".toList
  host := "host".toList
  quicPort := 4433
  version := "0.1.0".toList
  lastSeen := 0
  certHash := some certHash

/-- The agent is installed again: the hash of its old certificate may be found. -/
theorem reinstall_finds_old : ¬ ∀ host calls, FindsLatest host calls := by
  intro h
  let calls : List RegistryCall :=
    [.register (sampleAgent ['a'] ['x']), .register (sampleAgent ['b'] ['y'])]
  have hfind := h "host".toList calls (registry calls) (.refl _)
  exact absurd hfind (by decide)

end Oxmux.Ws
