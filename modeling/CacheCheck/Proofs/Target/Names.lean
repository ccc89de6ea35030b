import CacheCheck.Proofs.CommandLine.Lists
import CacheCheck.Proofs.Target.Opening
import CacheCheck.Proofs.Url.Parts

/-!
Names of targets in the place of their addresses. A node is named by its address with a scheme, a
cluster by all of its addresses so, and servers by their addresses as they are, with commas between.
An address is given a scheme no more than once and no comma by it. So a target that is given its own
name keeps the name, and what is read of its addresses stays the same, whatever they look like
(`restored_describe`); it is opened as before, on every network (`connect_readdress`).

What a failure says of an address that cannot be read is not the same: it has the address as it was
given.
-/

set_option autoImplicit false

namespace CacheCheck

open CommandLine (IsSplit splitList splitList_intercalate)

/-! ### Addresses of Redis servers -/

namespace Redis

theorem Address.url_url (text : String) : url (url text) = url text :=
  Url.withScheme_withScheme "redis" "redis" text

/-- A failure to read an address is told in words of its own, but it fails where its URL does. -/
theorem Address.toOption_parse (text : String) (version : Resp.Version) :
    (parse text version).toOption = (ofUrl (url text) version).toOption := by
  unfold parse
  cases ofUrl (url text) version <;> rfl

theorem Address.toOption_parse_url (text : String) (version : Resp.Version) :
    (parse (url text) version).toOption = (parse text version).toOption := by
  rw [toOption_parse, toOption_parse, url_url]

/-- A scheme brings no comma with it. -/
theorem Address.comma_not_mem_url {text : String} (h : ',' ∉ text.toList) :
    ',' ∉ (url text).toList := by
  unfold url Url.withScheme
  split
  · exact h
  · rw [String.toList_append, String.toList_append]
    simp [h]

theorem Cluster.isSplit_urls {cluster : Redis.Cluster} (h : IsSplit cluster.nodes) :
    IsSplit (cluster.nodes.map Address.url) where
  nonempty := mt List.map_eq_nil_iff.mp h.nonempty
  no_comma text hmem := by
    obtain ⟨node, hnode, rfl⟩ := List.mem_map.mp hmem
    exact Address.comma_not_mem_url (h.no_comma node hnode)

theorem Cluster.toOption_addresses {cluster : Redis.Cluster} (h : cluster.nodes ≠ []) :
    cluster.addresses.toOption =
      cluster.nodes.mapM fun node ↦ (Address.parse node cluster.version).toOption := by
  rw [Cluster.addresses, if_neg (mt List.isEmpty_iff.mp h), toOption_mapM]

end Redis

/-! ### Targets that are given a name -/

namespace Target

/-- The target with another address, or with the addresses of another list with commas. -/
def readdress (target : Target) (text : String) : Target :=
  match target with
  | .redis node => .redis { node with url := text }
  | .cluster target => .cluster { target with nodes := splitList text }
  | .memcached target => .memcached { target with servers := splitList text }

/-- What two targets have in common when one of them was given the name of the other. Their
addresses are read as the same, or cannot be read in either. -/
inductive Restored : Target → Target → Prop
  | redis {node again : Redis.Node}
      (name_eq : again.name = node.name)
      (address_eq : again.address.toOption = node.address.toOption) :
      Restored (.redis node) (.redis again)
  | cluster {cluster again : Redis.Cluster}
      (length_eq : again.nodes.length = cluster.nodes.length)
      (name_eq : again.name = cluster.name)
      (addresses_eq : again.addresses.toOption = cluster.addresses.toOption) :
      Restored (.cluster cluster) (.cluster again)
  | memcached {servers again : Memcached.Servers}
      (servers_eq : again.servers = servers.servers)
      (urls_eq : again.urls = servers.urls) :
      Restored (.memcached servers) (.memcached again)

theorem restored_node (node : Redis.Node) :
    Restored (.redis node) (readdress (.redis node) node.name) :=
  .redis (Redis.Address.url_url node.url) (Redis.Address.toOption_parse_url node.url node.version)

theorem readdress_cluster {cluster : Redis.Cluster} (h : IsSplit cluster.nodes) :
    readdress (.cluster cluster) cluster.name =
      .cluster { cluster with nodes := cluster.nodes.map Redis.Address.url } := by
  rw [readdress, Redis.Cluster.name, splitList_intercalate (Redis.Cluster.isSplit_urls h)]

theorem restored_cluster {cluster : Redis.Cluster} (h : IsSplit cluster.nodes) :
    Restored (.cluster cluster)
      (.cluster { cluster with nodes := cluster.nodes.map Redis.Address.url }) := by
  have hurls := Redis.Cluster.isSplit_urls h
  refine .cluster (List.length_map _) ?_ ?_
  · have hagain : Redis.Address.url ∘ Redis.Address.url = Redis.Address.url :=
      funext Redis.Address.url_url
    rw [Redis.Cluster.name, Redis.Cluster.name, List.map_map, hagain]
  · rw [Redis.Cluster.toOption_addresses h.nonempty,
      Redis.Cluster.toOption_addresses hurls.nonempty, List.mapM_map]
    simp only [Function.comp_def, Redis.Address.toOption_parse_url]

theorem readdress_memcached {servers : Memcached.Servers} (h : IsSplit servers.servers) :
    readdress (.memcached servers) servers.name = .memcached servers := by
  rw [readdress, Memcached.Servers.name, splitList_intercalate h]

/-- The name of a target can be given in the place of its addresses. -/
theorem restored_describe (target : Target) (h : target.IsListed) :
    Restored target (target.readdress target.describe) := by
  cases target with
  | redis node => exact restored_node node
  | cluster cluster =>
    rw [describe, readdress_cluster h]
    exact restored_cluster h
  | memcached servers =>
    rw [describe, readdress_memcached h]
    exact .memcached rfl rfl

/-- Bare addresses, even an empty one, are named with a scheme, and others as they are. -/
theorem restored_describe_seeds :
    let target := Target.cluster
      { nodes := ["10.0.0.1:7000", "unix:/run/redis.sock", "valkey://10.0.0.2", ""]
        version := .resp2 }
    let name := "redis://10.0.0.1:7000,unix:/run/redis.sock,valkey://10.0.0.2,redis://"
    target.IsListed ∧ target.describe = name ∧ Restored target (target.readdress name) := by
  have hlisted :
      IsSplit ["10.0.0.1:7000", "unix:/run/redis.sock", "valkey://10.0.0.2", ""] := by decide
  exact ⟨hlisted, rfl, restored_describe (.cluster _) hlisted⟩

/-- A target under its own name is opened as before, if its addresses can be read at all. -/
theorem connect_readdress (network : Network) {target : Target} (h : target.IsListed) :
    (target.readdress target.describe).connect network = target.connect network ∨
      ∃ reason again, target.connect network = .failed (.configuration reason) ∧
        (target.readdress target.describe).connect network = .failed (.configuration again) := by
  cases target with
  | redis node =>
    obtain ⟨hname, haddress⟩ := restored_node node
    rcases eq_ok_or_error_of_toOption_eq haddress with
      ⟨address, hnode, hagain⟩ | ⟨_, _, hnode, hagain⟩
    · left
      simp only [describe, readdress, connect, Redis.Node.connect, hnode, hagain, hname]
    · right
      obtain ⟨reason, rfl⟩ := Redis.Address.exists_of_parse_eq_error hnode
      obtain ⟨again, rfl⟩ := Redis.Address.exists_of_parse_eq_error hagain
      refine ⟨reason, again, ?_, ?_⟩
      · simp only [connect, Redis.Node.connect, hnode]
      · simp only [describe, readdress, connect, Redis.Node.connect, hagain]
  | cluster cluster =>
    rw [describe, readdress_cluster h]
    cases restored_cluster h with
    | cluster hlength hname haddresses =>
      rcases eq_ok_or_error_of_toOption_eq haddresses with
        ⟨addresses, hcluster, hagain⟩ | ⟨_, _, hcluster, hagain⟩
      · left
        simp only [connect, Redis.Cluster.connect, Redis.Cluster.seeds, hcluster, hagain, hname]
      · right
        obtain ⟨reason, hreason⟩ := exists_connect_cluster hcluster
        obtain ⟨again, hrefused⟩ := exists_connect_cluster hagain
        exact ⟨reason, again, hreason network, hrefused network⟩
  | memcached servers =>
    rw [describe, readdress_memcached h]
    exact .inl rfl

end Target

end CacheCheck
