import CacheCheck.Proofs.Program.Visits

/-!
What comes of opening a target. On any network, a target that can be opened yields a client of its
own backend, and one that cannot be yields a failure of the configuration or of the connection. What
is wrong with the target itself (`Unfit`) is reported as such, on every network alike, since it is
found before the network is asked for anything.

There is one way out of this. The library that connects to memcached servers insists on a wait of
some length, and a target's timeout is handed to it as it is: an opening of servers with a timeout of
zero is aborted, as soon as the address of the first server has been read (`connect_classified`).
The command line takes such a timeout (`connect_aborts_on_zero`).
-/

set_option autoImplicit false

namespace CacheCheck

/-! ### Addresses -/

theorem exists_of_mapM_eq_error {ε α β : Type} {read : α → Except ε β} {texts : List α} {fault : ε}
    (h : texts.mapM read = .error fault) : ∃ text ∈ texts, read text = .error fault := by
  induction texts with
  | nil => cases h
  | cons text rest ih =>
    rw [List.mapM_cons] at h
    cases hfirst : read text with
    | error first =>
      rw [hfirst] at h
      cases h
      exact ⟨text, List.mem_cons_self, hfirst⟩
    | ok value =>
      rw [hfirst] at h
      cases hrest : rest.mapM read with
      | error later =>
        rw [hrest] at h
        cases h
        obtain ⟨other, hmem, hother⟩ := ih hrest
        exact ⟨other, List.mem_cons_of_mem text hmem, hother⟩
      | ok values =>
        rw [hrest] at h
        cases h

theorem exists_mapM_eq_error {ε α β : Type} {read : α → Except ε β} {texts : List α} {text : α}
    {fault : ε} (hmem : text ∈ texts) (h : read text = .error fault) :
    ∃ first, texts.mapM read = .error first := by
  induction texts with
  | nil => cases hmem
  | cons other rest ih =>
    rw [List.mapM_cons]
    cases hother : read other with
    | error first => exact ⟨first, rfl⟩
    | ok value =>
      have hrest : text ∈ rest := by
        refine (List.mem_cons.mp hmem).resolve_left ?_
        rintro rfl
        rw [h] at hother
        cases hother
      obtain ⟨first, hfirst⟩ := ih hrest
      exact ⟨first, by rw [hfirst]; rfl⟩

namespace Redis

theorem Address.parse_eq_error {text : String} {version : Resp.Version} {fault : Redis.Fault}
    (h : Address.ofUrl (Address.url text) version = .error fault) :
    Address.parse text version =
      .error (.configuration ("bad redis url " ++ quote text ++ ": " ++ fault.message)) := by
  unfold Address.parse
  generalize Address.ofUrl (Address.url text) version = read at h ⊢
  subst h
  rfl

/-- An address that cannot be read is a fault of the configuration. -/
theorem Address.exists_of_parse_eq_error {text : String} {version : Resp.Version}
    {failure : Failure} (h : Address.parse text version = .error failure) :
    ∃ message, failure = .configuration message := by
  unfold Address.parse at h
  split at h <;> cases h
  exact ⟨_, rfl⟩

theorem Cluster.exists_of_addresses_eq_error {cluster : Redis.Cluster} {failure : Failure}
    (h : cluster.addresses = .error failure) : ∃ message, failure = .configuration message := by
  unfold Cluster.addresses at h
  split at h
  · cases h
    exact ⟨_, rfl⟩
  · obtain ⟨text, -, htext⟩ := exists_of_mapM_eq_error h
    exact Address.exists_of_parse_eq_error htext

/-- Seeds that do not fit each other are a fault of the configuration, as an address is. -/
theorem Cluster.exists_of_seeds_eq_error {cluster : Redis.Cluster} {failure : Failure}
    (h : cluster.seeds = .error failure) : ∃ message, failure = .configuration message := by
  unfold Cluster.seeds at h
  cases haddresses : cluster.addresses with
  | error fault =>
    rw [haddresses] at h
    cases h
    exact Cluster.exists_of_addresses_eq_error haddresses
  | ok addresses =>
    rw [haddresses] at h
    simp only [bind, Except.bind] at h
    split at h <;> cases h
    exact ⟨_, rfl⟩

end Redis

/-! ### What is wrong with a target -/

namespace Target

/-- A target that cannot be right on any network: without an address, or with one of a Redis server
that cannot be read. -/
inductive Unfit : Target → Prop
  | node {node : Redis.Node} {fault : Redis.Fault}
      (h : Redis.Address.ofUrl (Redis.Address.url node.url) node.version = .error fault) :
      Unfit (.redis node)
  | noSeed {cluster : Redis.Cluster} (h : cluster.nodes = []) : Unfit (.cluster cluster)
  | seed {cluster : Redis.Cluster} {text : String} {fault : Redis.Fault}
      (hmem : text ∈ cluster.nodes)
      (h : Redis.Address.ofUrl (Redis.Address.url text) cluster.version = .error fault) :
      Unfit (.cluster cluster)
  | noServer {servers : Memcached.Servers} (h : servers.servers = []) : Unfit (.memcached servers)

theorem exists_connect_cluster {cluster : Redis.Cluster} {failure : Failure}
    (h : cluster.addresses = .error failure) :
    ∃ message, ∀ network, (Target.cluster cluster).connect network =
      .failed (.configuration message) := by
  obtain ⟨message, rfl⟩ := Redis.Cluster.exists_of_addresses_eq_error h
  have hseeds : cluster.seeds = .error (.configuration message) := by
    rw [Redis.Cluster.seeds, h]
    rfl
  refine ⟨message, fun network ↦ ?_⟩
  rw [Target.connect, Redis.Cluster.connect, hseeds]

theorem exists_addresses_eq_error {cluster : Redis.Cluster} {text : String} {fault : Redis.Fault}
    (hmem : text ∈ cluster.nodes)
    (h : Redis.Address.ofUrl (Redis.Address.url text) cluster.version = .error fault) :
    ∃ failure, cluster.addresses = .error failure := by
  obtain ⟨first, hfirst⟩ : ∃ first,
      cluster.nodes.mapM (Redis.Address.parse · cluster.version) = .error first :=
    exists_mapM_eq_error hmem (Redis.Address.parse_eq_error h)
  refine ⟨first, ?_⟩
  rw [Redis.Cluster.addresses, if_neg (by simpa using List.ne_nil_of_mem hmem), hfirst]

/-- What is wrong with the target itself is reported before the network is asked. -/
theorem Unfit.exists_connect {target : Target} (h : target.Unfit) :
    ∃ message, ∀ network, target.connect network = .failed (.configuration message) := by
  cases h with
  | @node node fault h =>
    refine ⟨"bad redis url " ++ quote node.url ++ ": " ++ fault.message, fun network ↦ ?_⟩
    have hparse := Redis.Address.parse_eq_error h
    rw [Target.connect, Redis.Node.connect, Redis.Node.address]
    generalize Redis.Address.parse node.url node.version = read at hparse ⊢
    subst hparse
    rfl
  | @noSeed cluster h =>
    have haddresses : cluster.addresses =
        .error (.configuration "at least one cluster node is required") := by
      rw [Redis.Cluster.addresses, h]
      rfl
    exact exists_connect_cluster haddresses
  | @seed cluster text fault hmem h =>
    obtain ⟨failure, haddresses⟩ := exists_addresses_eq_error hmem h
    exact exists_connect_cluster haddresses
  | @noServer servers h =>
    refine ⟨"at least one memcached server is required", fun network ↦ ?_⟩
    rw [Target.connect, Memcached.Servers.connect, Memcached.Servers.urls, h]
    rfl

/-! ### What comes of an opening -/

/-- Servers are not waited for once the timeout is known to be zero. -/
theorem reach_eq_abort_iff (network : Network) (timeout : Option Nat) (urls : List String)
    (message : String) :
    Memcached.reach network timeout urls = .error (.abort message) ↔
      message = "connection_timeout must be positive" ∧ timeout = some 0 ∧
        ∃ first rest address, urls = first :: rest ∧
          Memcached.Address.ofUrl first = .ok address := by
  constructor
  · intro h
    have hzero := Program.timeout_eq_of_reach h
    cases urls with
    | nil => cases h
    | cons first rest =>
      unfold Memcached.reach at h
      cases haddress : Memcached.Address.ofUrl first with
      | error fault =>
        rw [haddress] at h
        cases h
      | ok address =>
        simp only [haddress, hzero, if_true, Except.error.injEq,
          Memcached.Obstacle.abort.injEq] at h
        exact ⟨h.symm, hzero, first, rest, address, rfl, haddress⟩
  · rintro ⟨rfl, rfl, first, rest, address, rfl, haddress⟩
    rw [Memcached.reach, haddress]
    exact if_pos rfl

theorem connect_servers_eq_aborted_iff (network : Network) (servers : Memcached.Servers)
    (message : String) :
    servers.connect network = .aborted message ↔
      message = "connection_timeout must be positive" ∧ servers.timeout = some 0 ∧
        ∃ first rest address, servers.servers = first :: rest ∧
          Memcached.Address.ofUrl (Memcached.Address.url servers.wire first) = .ok address := by
  cases hservers : servers.servers with
  | nil => simp [Memcached.Servers.connect, Memcached.Servers.urls, hservers]
  | cons first rest =>
    have hurls : servers.urls =
        .ok ((first :: rest).map (Memcached.Address.url servers.wire)) := by
      rw [Memcached.Servers.urls, hservers]
      rfl
    have hreach := reach_eq_abort_iff network servers.timeout
      ((first :: rest).map (Memcached.Address.url servers.wire)) message
    rw [Memcached.Servers.connect, hurls]
    simp only [List.map_cons, List.cons.injEq] at hreach ⊢
    split
    · next fault hfault =>
      simp only [hfault] at hreach
      simpa using hreach
    · next other hother =>
      simp only [hother] at hreach
      simpa using hreach
    · next addresses haddresses =>
      simp only [haddresses] at hreach
      simpa using hreach

/-- A failure to open is one of the configuration or of the connection. -/
theorem kind_of_connect {network : Network} {target : Target} {failure : Failure}
    (h : target.connect network = .failed failure) :
    failure.kind = .configuration ∨ failure.kind = .connection := by
  cases target with
  | redis node =>
    simp only [Target.connect, Redis.Node.connect] at h
    split at h
    · next haddress =>
      obtain ⟨message, rfl⟩ := Redis.Address.exists_of_parse_eq_error haddress
      cases h
      exact Or.inl rfl
    · split at h <;> cases h
      exact Or.inr rfl
  | cluster cluster =>
    simp only [Target.connect, Redis.Cluster.connect] at h
    split at h
    · next hseeds =>
      obtain ⟨message, rfl⟩ := Redis.Cluster.exists_of_seeds_eq_error hseeds
      cases h
      exact Or.inl rfl
    · split at h <;> cases h
      exact Or.inr rfl
  | memcached servers =>
    simp only [Target.connect, Memcached.Servers.connect] at h
    split at h
    · next hurls =>
      unfold Memcached.Servers.urls at hurls
      split at hurls <;> cases hurls
      cases h
      exact Or.inl rfl
    · split at h <;> cases h
      exact Or.inr rfl

/-- How openings of a target end. -/
structure Classified (target : Target) : Prop where
  backend_eq (network : Network) (connected : Connected) (log : List LogLine) :
    target.connect network = .ready connected log → connected.client.backend = target.backend
  kind_eq (network : Network) (failure : Failure) :
    target.connect network = .failed failure →
      failure.kind = .configuration ∨ failure.kind = .connection
  /-- What is wrong with the target itself is reported so on every network, since it is found before
  the network is asked. -/
  unfit : target.Unfit →
    ∃ message, ∀ network, target.connect network = .failed (.configuration message)
  /-- An opening is aborted over a wait of no length, and then on every network. -/
  aborted_iff (network : Network) (message : String) :
    target.connect network = .aborted message ↔
      message = "connection_timeout must be positive" ∧
        ∃ servers first rest address, target = .memcached servers ∧
          servers.timeout = some 0 ∧ servers.servers = first :: rest ∧
          Memcached.Address.ofUrl (Memcached.Address.url servers.wire first) = .ok address

/-- Every opening ends in a client or in a failure of one of two kinds, but for servers that are to
be waited for no time at all. It makes no difference in what unit timeouts are counted. -/
theorem connect_classified (target : Target) : Classified target where
  backend_eq network connected log h := by
    have hnot : ∀ message, target.connect network ≠ .aborted message := by
      intro message haborted
      rw [h] at haborted
      cases haborted
    have hopened := Program.opened_connect network hnot
    rw [h] at hopened
    cases hopened with
    | ready client state log hbackend hlog hannounce => exact hbackend
  kind_eq network failure := kind_of_connect
  unfit := Unfit.exists_connect
  aborted_iff network message := by
    cases target with
    | redis node =>
      have hopened := Program.opened_node network node
      refine ⟨fun h ↦ absurd h (hopened.ne_aborted message), ?_⟩
      rintro ⟨-, servers, first, rest, address, htarget, -⟩
      cases htarget
    | cluster cluster =>
      have hopened := Program.opened_cluster network cluster
      refine ⟨fun h ↦ absurd h (hopened.ne_aborted message), ?_⟩
      rintro ⟨-, servers, first, rest, address, htarget, -⟩
      cases htarget
    | memcached servers =>
      refine (connect_servers_eq_aborted_iff network servers message).trans ?_
      constructor
      · rintro ⟨hmessage, hzero, first, rest, address, hservers, haddress⟩
        exact ⟨hmessage, servers, first, rest, address, rfl, hzero, hservers, haddress⟩
      · rintro ⟨hmessage, _, first, rest, address, ⟨⟩, hzero, hservers, haddress⟩
        exact ⟨hmessage, hzero, first, rest, address, hservers, haddress⟩

open CommandLine (Invocation)

/-- The words `memcached --timeout-ms 0` ask for a target whose opening is aborted, and with it the
run of the program. -/
theorem connect_aborts_on_zero :
    ∃ invocation servers,
      Invocation.parse {} ["memcached", "--timeout-ms", "0"] = .ok invocation ∧
        invocation.targets = [.memcached servers] ∧
        ∀ network,
          (Target.memcached servers).connect network =
              .aborted "connection_timeout must be positive" ∧
            Program.run (Target.connect network) invocation =
              .error "connection_timeout must be positive" :=
  ⟨_, { timeout := some 0 }, rfl, rfl, fun _ ↦ ⟨rfl, rfl⟩⟩

end Target

end CacheCheck
