import Gfe.Handler.Decision
import Gfe.Reload.Startup

/-! # Connections used for other hosts

A client may use a TLS connection for another host than it was opened for. Its
handshake was answered from the certificate store of that moment; whether a
request may use the connection is decided by the store of a later moment.
-/

namespace Gfe

open Interleaving

/-- `SniResolver::resolve_sni`: the certificate a handshake is answered with. -/
def resolveSni (sni : Option Str) : Program World (Option SharedKey) :=
  readNode fun n => n.resolver.resolve sni

/-- An open TLS connection, with the store its handshake was answered from. -/
structure Session where
  conn : ConnInfo
  sni : Str
  named : conn.sni = some sni
  store : CertStore
  presented : SharedKey
  resolved : store.resolve (some sni) = some presented

/-- A node with the TLS connections that are open on it. -/
structure Serving where
  control : Startup
  sessions : List Session

section Sessions

variable (crates : Crates) (settings : NodeConfig)

inductive Serving.Step (others : World → World → Prop) : Serving → Serving → Prop where
  | control {s s' sessions} : Startup.Step crates settings others s s' →
      Step others ⟨s, sessions⟩ ⟨s', sessions⟩
  | handshake {s sessions} (session : Session) :
      (resolveSni (some session.sni)).run s.world = (some session.presented, s.world) →
      session.store = s.world.node.resolver → Step others ⟨s, sessions⟩ ⟨s, session :: sessions⟩
  | close {s sessions rest} : rest ⊆ sessions → Step others ⟨s, sessions⟩ ⟨s, rest⟩

variable {crates settings}

/-- A step that brings no other name under the certificate entry of an open
    connection's SNI. -/
def Serving.KeepsApart (s s' : Serving) : Prop :=
  ∀ session ∈ s.sessions, ∀ host, Text.eqIgnoreAsciiCase session.sni host = false →
    s'.control.world.node.resolver.sameCertificate session.sni host = true →
      s.control.world.node.resolver.sameCertificate session.sni host = true

/-- What else the current store has under the entry of an open connection's SNI
    was under it at the handshake. -/
def Serving.Sound (s : Serving) : Prop :=
  ∀ session ∈ s.sessions, ∀ host, Text.eqIgnoreAsciiCase session.sni host = false →
    s.control.world.node.resolver.sameCertificate session.sni host = true →
      session.store.sameCertificate session.sni host = true

theorem Serving.Sound.step {others : World → World → Prop} {s s' : Serving} (sound : s.Sound)
    (step : Step crates settings others s s') (apart : s.KeepsApart s') : s'.Sound := by
  cases step with
  | control moved =>
    intro session member host differs same
    exact sound session member host differs (apart session member host differs same)
  | handshake session answered used =>
    intro other member host differs same
    rcases List.mem_cons.mp member with rfl | member
    · rw [used]
      exact same
    · exact sound other member host differs same
  | close part => exact fun session member => sound session (part member)

theorem CertStore.sameCertificate_iff {store : CertStore} {a b : Str} {key : SharedKey}
    (resolved : store.resolve (some a) = some key) :
    store.sameCertificate a b = true ↔
      ∃ other, store.resolve (some b) = some other ∧ other.entry = key.entry := by
  rw [CertStore.sameCertificate, resolved]
  cases store.resolve (some b) with
  | none => simp
  | some other =>
    simp only [Option.some.injEq, beq_iff_eq, exists_eq_left']
    exact eq_comm

/-- A request for another host that passes the host check found host and SNI
    under one entry. -/
theorem sameCertificate_of_checkHost {http : Http} {conn : ConnInfo} {request : RequestHead http}
    {sni host : Str} {w : World} (named : conn.sni = some sni)
    (passed : ((checkHost conn request).run w).1 = .ok host)
    (other : Text.eqIgnoreAsciiCase sni host = false) :
    w.node.resolver.sameCertificate sni host = true := by
  unfold checkHost at passed
  rw [named] at passed
  cases asked : requestHost request.uri request.headers request.version (some sni) with
  | error error =>
    rw [asked] at passed
    cases passed
  | ok wanted =>
    rw [asked] at passed
    have verdict : coveredBySni (some sni) wanted w.node.resolver = .ok host := passed
    unfold coveredBySni at verdict
    dsimp only at verdict
    split at verdict
    · cases verdict
    · rename_i allowed
      cases verdict
      simpa [other] using allowed

theorem Serving.runs_reloaded {others : World → World → Prop} {w : World} (w' : World)
    {config : DynamicConfig} {session : Session}
    (usable : (Fallible.exec (applyInitial crates settings) w).1 = .ok config)
    (used : session.store = (Fallible.exec (applyInitial crates settings) w).2.node.resolver)
    (changed : others (Fallible.exec (applyInitial crates settings) w).2 w') :
    Relation.ReflTransGen (Step crates settings others) ⟨⟨w, .waiting, none⟩, []⟩
      ⟨⟨((reload crates settings).run w').2, .applied config, none⟩, [session]⟩ := by
  have lift : ∀ {s s' : Startup} (sessions : List Session),
      Relation.ReflTransGen (Startup.TimelyStep crates settings others) s s' →
      Relation.ReflTransGen (Step crates settings others) ⟨s, sessions⟩ ⟨s', sessions⟩ :=
    fun sessions steps => steps.lift (Serving.mk · sessions) fun _ _ step => .control step.1
  have resolved := session.resolved
  rw [used] at resolved
  refine .trans (lift [] (Startup.runs_initial others usable)) ?_
  refine .head (.handshake session (Prod.ext resolved rfl) used) ?_
  refine .head (.control (.others changed)) (.head (.control (.trigger nofun)) ?_)
  exact lift _ (Startup.runs_reload others _ _ w')

variable (crates settings)

/-- In every run of a node with any reloads in which no step brings another name
    under the certificate entry of an open connection's SNI, a request for another host
    passes the host check only if the entry presented at the handshake was the
    host's entry in the store of the handshake. -/
theorem coalesced_under_presented_entry (others : World → World → Prop) (start : Startup)
    (s : Serving)
    (run : Relation.ReflTransGen
      (fun s s' => Serving.Step crates settings others s s' ∧ s.KeepsApart s') ⟨start, []⟩ s)
    (session : Session) (opened : session ∈ s.sessions) {http : Http} (request : RequestHead http)
    (host : Str) (other : Text.eqIgnoreAsciiCase session.sni host = false)
    (passed : ((checkHost session.conn request).run s.control.world).1 = .ok host) :
    ∃ key, session.store.resolve (some host) = some key ∧ key.entry = session.presented.entry := by
  have sound : s.Sound := by
    clear opened passed
    induction run with
    | refl => exact nofun
    | tail _ last ih => exact ih.step last.1 last.2
  have now := sameCertificate_of_checkHost session.named passed other
  exact (CertStore.sameCertificate_iff session.resolved).mp (sound session opened host other now)

end Sessions

/-! ## Two certificates that become one -/

/-- Files of two certificates for the names `a` and `h`, or of one for both. -/
def apartConfig : DynamicConfig :=
  { onPorts [80] with certificates :=
      [⟨[['a']], false, ⟨['x']⟩, ⟨['y']⟩⟩, ⟨[['h']], false, ⟨['z']⟩, ⟨['y']⟩⟩] }

def mergedConfig : DynamicConfig :=
  { onPorts [80] with certificates := [⟨[['a'], ['h']], false, ⟨['x']⟩, ⟨['y']⟩⟩] }

def mergingCrates : Crates := .indexed [apartConfig, mergedConfig]

def mergingHost (index : UInt8) : Host :=
  .small [(⟨['c']⟩, ⟨none, .ok [index]⟩), (⟨['x']⟩, ⟨none, .ok [1]⟩), (⟨['y']⟩, ⟨none, .ok [2]⟩),
    (⟨['z']⟩, ⟨none, .ok [3]⟩)] (.error .notFound) []

/-- The node once it has started on one of the configs. -/
def startedOn (index : UInt8) : World :=
  (Fallible.exec (applyInitial mergingCrates (.small none)) (.starting (mergingHost index) ∅)).2

/-- A connection for `a`, opened then. -/
def sessionOn (index : UInt8)
    (resolved : (startedOn index).node.resolver.resolve (some ['a']) = some ⟨0, ⟨[[1]], [2]⟩⟩) :
    Session where
  conn := ⟨0, some ['a']⟩
  sni := ['a']
  named := rfl
  store := (startedOn index).node.resolver
  presented := ⟨0, ⟨[[1]], [2]⟩⟩
  resolved := resolved

/-- The node that started with two certificates once there is one for both. -/
def redeployed : World := { startedOn 0 with host := mergingHost 1 }

/-- The store of the merged config when this key and chain are on disk. -/
def mergedStore (key : CertifiedKey) : CertStore :=
  .order ((CertStore.empty.addName ⟨0, key⟩ 0 ['a']).addName ⟨0, key⟩ 0 ['h'])

theorem sameCertificate_mergedStore (key key' : CertifiedKey) (a b : Str) :
    (mergedStore key').sameCertificate a b = (mergedStore key).sameCertificate a b := by
  have resolves : ∀ (key : CertifiedKey) (name : Str), (mergedStore key).resolve (some name) =
      if Text.toAsciiLowercase name ∈ [['h'], ['a']] then some ⟨0, key⟩ else none := by
    intro key name
    have exact : (mergedStore key).exact.lookup (Text.toAsciiLowercase name) =
        if Text.toAsciiLowercase name ∈ [['h'], ['a']] then some ⟨0, key⟩ else none := by
      change ((AList.insert ['a'] _ ∅).insert ['h'] _).lookup _ = _
      rw [HashMap.lookup_insert, HashMap.lookup_insert, AList.lookup_empty]
      grind
    rw [CertStore.resolve, exact]
    split_ifs <;> rfl
  simp only [CertStore.sameCertificate, resolves]
  split_ifs <;> rfl

/-- The node that started with one certificate for both names, when a reload has read its
    renewal and swaps it in next. -/
def renewing : Program World Unit × World :=
  (reload mergingCrates (.small none)).advance 10 ((startedOn 1).replace ⟨['x']⟩ ⟨none, .ok [9]⟩)

theorem coalesced_on_renewed_certificate :
    let renewed := (renewing.1.advance 1 renewing.2).2
    renewed.node.resolver = mergedStore ⟨[[9]], [2]⟩ ∧
      ∃ key, (mergedStore ⟨[[1]], [2]⟩).resolve (some ['h']) = some key ∧ key.entry = 0 := by
  intro renewed
  have resolved : (startedOn 1).node.resolver.resolve (some ['a']) = some ⟨0, ⟨[[1]], [2]⟩⟩ := by
    decide +kernel
  have other : Text.eqIgnoreAsciiCase ['a'] ['h'] = false := by decide
  have passed : ((checkHost ⟨0, some ['a']⟩ hostRequest).run renewed).1 = .ok ['h'] := by
    decide +kernel
  have opened : Serving.Step mergingCrates (.small none) (fun _ _ => False)
      ⟨⟨renewing.2, .started, some renewing.1⟩, []⟩
      ⟨⟨renewing.2, .started, some renewing.1⟩, [sessionOn 1 resolved]⟩ :=
    .handshake (sessionOn 1 resolved) (Prod.ext resolved rfl) rfl
  have swapped : Serving.Step mergingCrates (.small none) (fun _ _ => False)
      ⟨⟨renewing.2, .started, some renewing.1⟩, [sessionOn 1 resolved]⟩
      ⟨⟨renewed, .started, some (renewing.1.advance 1 renewing.2).1⟩, [sessionOn 1 resolved]⟩ :=
    .control .act
  have apart : Serving.KeepsApart
      ⟨⟨renewing.2, .started, some renewing.1⟩, [sessionOn 1 resolved]⟩
      ⟨⟨renewed, .started, some (renewing.1.advance 1 renewing.2).1⟩, [sessionOn 1 resolved]⟩ := by
    intro session _ host _ same
    exact (sameCertificate_mergedStore ⟨[[1]], [2]⟩ ⟨[[9]], [2]⟩ session.sni host).symm.trans same
  exact ⟨rfl, coalesced_under_presented_entry mergingCrates (.small none) (fun _ _ => False) _ _
    ((Relation.ReflTransGen.single ⟨opened, nofun⟩).tail ⟨swapped, apart⟩) (sessionOn 1 resolved)
    List.mem_cons_self hostRequest ['h'] other passed⟩

/-- A connection is opened for `a`, whose certificate is not the one of `h`. Then
    a config with one certificate for both is deployed, and the connection may be
    used for `h`, over the certificate it was opened with. -/
theorem coalesced_over_other_certificate :
    ∃ s session, Relation.ReflTransGen
        (Serving.Step mergingCrates (.small none) fun w w' => w'.node = w.node)
        ⟨⟨.starting (mergingHost 0) ∅, .waiting, none⟩, []⟩ s ∧
      session ∈ s.sessions ∧ Text.eqIgnoreAsciiCase session.sni ['h'] = false ∧
      ((checkHost session.conn hostRequest).run s.control.world).1 = .ok ['h'] ∧
      session.presented = ⟨0, ⟨[[1]], [2]⟩⟩ ∧
      session.store.resolve (some ['h']) = some ⟨1, ⟨[[3]], [2]⟩⟩ := by
  have resolved : (startedOn 0).node.resolver.resolve (some ['a']) = some ⟨0, ⟨[[1]], [2]⟩⟩ := by
    decide +kernel
  have usable : (Fallible.exec (applyInitial mergingCrates (.small none))
      (.starting (mergingHost 0) ∅)).1 = .ok apartConfig := by decide +kernel
  have passed : ((checkHost ⟨0, some ['a']⟩ hostRequest).run
      ((reload mergingCrates (.small none)).run redeployed).2).1 = .ok ['h'] := by decide +kernel
  have apart : (startedOn 0).node.resolver.resolve (some ['h']) = some ⟨1, ⟨[[3]], [2]⟩⟩ := by
    decide +kernel
  exact ⟨_, sessionOn 0 resolved, Serving.runs_reloaded redeployed usable rfl rfl, List.mem_cons_self, rfl,
    passed, rfl, apart⟩

end Gfe
