import Sweety.AlignedPool
import Sweety.UpstreamPool

namespace Sweety.PoolIdentity

open ForwardRequest UpstreamResponse SegmentedReader StepRun
open AlignedPool (Job)

/-!
# What a pooled connection is

What a connection is gets fixed when it is opened: the address, the TLS server
name and whether the certificate is verified, and the client that a PROXY header
names.  The pools see a key only.  The requests of all workers are modelled,
with the HTTP/1 pool of each worker (`pool.rs`) and the HTTP/2 pools that the
workers share (`upstream_h2.rs`).
-/

/-! ## Opening a connection -/

/-- `IpAddr`. -/
inductive IpAddr where
  | v4 (octets : List UInt8)
  | v6 (octets : List UInt8)
  deriving Repr, DecidableEq

/-- `SocketAddr`. -/
structure SocketAddr where
  ip : IpAddr
  port : Nat
  deriving Repr, DecidableEq

/-- What a request asks of its connection. -/
structure Ask where
  node : NodeState
  client : SocketAddr
  /-- What `local_addr` reports on a TCP connection opened for it. -/
  localAddr : Option SocketAddr
  /-- Whether it goes through the HTTP/2 pools. -/
  http2 : Bool
  deriving Repr, DecidableEq

/-- What a connection was established with. -/
structure Identity where
  addr : UpstreamAddr
  /-- With TLS, the server name and whether verification is skipped. -/
  tls : Option (String × Bool)
  /-- The client that its PROXY header names. -/
  announced : Option SocketAddr
  deriving Repr, DecidableEq

/--
The source named by `encode_v1` and `encode_v2`: for mixed address families the
first writes `UNKNOWN`, the second the `LOCAL` command.
-/
def namedSource (src dst : SocketAddr) : Option SocketAddr :=
  match src.ip, dst.ip with
  | .v4 _, .v4 _ | .v6 _, .v6 _ =>
      some src
  | .v4 _, .v6 _ | .v6 _, .v4 _ =>
      none

/-- `write_proxy_header`; an unknown version writes nothing. -/
def writeProxyHeader (version : Nat) (src dst : SocketAddr) :
    Option SocketAddr :=
  match version with
  | 1 | 2 =>
      namedSource src dst
  | _ =>
      none

namespace Ask

/-- The TLS settings that `tls_connect` is given, if it is called. -/
def tls (ask : Ask) : Option (String × Bool) :=
  if ask.node.tls then
    some (ask.node.tlsSni, ask.node.tlsInsecure)
  else
    none

/-- The destination that the PROXY header is given. -/
def proxyDestination (ask : Ask) : SocketAddr :=
  match ask.node.addr with
  | .tcp _ =>
      ask.localAddr.getD ask.client
  | .unix _ =>
      ⟨ask.client.ip, 0⟩

/-- What `new_conn` opens for a request. -/
def newConn (ask : Ask) : Identity where
  addr := ask.node.addr
  tls := ask.tls
  announced :=
    if 0 < ask.node.sendProxyProtocol then
      writeProxyHeader ask.node.sendProxyProtocol ask.client
        ask.proxyDestination
    else
      none

/-- The upstream is to be sent PROXY headers. -/
def SendsProxy (ask : Ask) : Prop :=
  ask.node.sendProxyProtocol = 1 ∨ ask.node.sendProxyProtocol = 2

/-- `key_from_addr`. -/
def key (ask : Ask) : String :=
  match ask.node.addr with
  | .tcp address =>
      (if ask.node.tls then "tls:" else "tcp:") ++ address
  | .unix path =>
      (if ask.node.tls then "tls-unix:" else "unix:") ++ path

/-- The key of `get_or_create`. -/
def h2Key (ask : Ask) : String :=
  (if ask.node.tls then "tls" else "plain") ++ ":" ++
    match ask.node.addr with
    | .tcp text | .unix text =>
        text

end Ask

/-- The connection is what the request asks for. -/
structure Identity.Serves (identity : Identity) (ask : Ask) : Prop where
  addr : identity.addr = ask.node.addr
  tls : identity.tls = ask.tls
  announced : ask.SendsProxy → identity.announced = some ask.client

/-! ## HTTP/2 -/

/-- `struct H2NodePool`. -/
structure H2NodePool where
  addr : UpstreamAddr
  useTls : Bool
  tlsSni : String
  tlsInsecure : Bool
  maxConns : Nat
  conns : List Identity
  deriving Repr, DecidableEq

/-- What the network does to `get_sender`. -/
structure H2Network where
  /-- Whether the connection at this position is ready. -/
  ready : Nat → Bool
  /-- Whether a new connection can be opened. -/
  opens : Bool
  /-- Whether the first connection is ready when it is waited for. -/
  readyAgain : Bool

namespace H2NodePool

/-- `H2NodePool::new`, with up to 8 connections. -/
def new (ask : Ask) : H2NodePool where
  addr := ask.node.addr
  useTls := ask.node.tls
  tlsSni := ask.node.tlsSni
  tlsInsecure := ask.node.tlsInsecure
  maxConns := max 8 1
  conns := []

/-- What `new_conn` of the pool opens; it writes no PROXY header. -/
def newConn (pool : H2NodePool) : Identity where
  addr := pool.addr
  tls :=
    if pool.useTls then
      some (pool.tlsSni, pool.tlsInsecure)
    else
      none
  announced := none

/-- The first connection that is ready. -/
def firstReady
    (ready : Nat → Bool) :
    Nat → List Identity → Option Identity
  | _, [] =>
      none
  | index, conn :: rest =>
      if ready index then
        some conn
      else
        firstReady ready (index + 1) rest

/-- `get_sender`. -/
def getSender
    (network : H2Network)
    (pool : H2NodePool) :
    Option Identity × H2NodePool :=
  match firstReady network.ready 0 pool.conns with
  | some conn =>
      (some conn, pool)
  | none =>
      if pool.conns.length < pool.maxConns then
        if network.opens then
          (if network.ready pool.conns.length then
              some pool.newConn
            else
              none,
            { pool with conns := pool.conns ++ [pool.newConn] })
        else
          (none, pool)
      else if network.readyAgain then
        (pool.conns.head?, pool)
      else
        (none, pool)

end H2NodePool

/-- `H2UpstreamPools`. -/
abbrev H2UpstreamPools :=
  String → Option H2NodePool

/-- `get_or_create`; the settings of a pool are those of its first request. -/
def getOrCreate (pools : H2UpstreamPools) (ask : Ask) : H2NodePool :=
  (pools ask.h2Key).getD (.new ask)

/-! ## Runs of requests -/

/-- An HTTP/1 connection with what it was established with. -/
structure Opened where
  conn : Conn
  identity : Identity
  deriving Repr, DecidableEq

/-- What an HTTP/1 request has. -/
structure Held where
  ask : Ask
  first : Except ForwardError (Opened × Nat × Nat)

/-- The pools of the workers, the shared HTTP/2 pools, and the requests. -/
structure System where
  workers : Nat → NodePools Opened
  held : Nat → Option Held
  h2 : H2UpstreamPools

/-- No connection has been opened yet. -/
def System.initial : System where
  workers := fun _ _ => []
  held := fun _ => none
  h2 := fun _ => none

/--
The steps; a task may move to another worker before it hands its connection
back. `fresh` and `second` are what opening a connection brings, if the request
has to open one.
-/
inductive Label where
  | acquire
      (request worker : Nat)
      (ask : Ask)
      (now : Nat)
      (fresh : Except ForwardError Conn)
      (freshAt : Nat)
  | finish
      (request worker : Nat)
      (job : Job)
      (second : Except ForwardError Conn)
      (secondAt now : Nat)
  /-- The client went away. -/
  | cancel (request : Nat)
  | http2 (ask : Ask) (network : H2Network)

/-- The connection of the first attempt, from the pool or a new one. -/
def firstConn
    (ask : Ask)
    (taken : Option (Opened × Nat × Nat))
    (fresh : Except ForwardError Conn)
    (freshAt : Nat) :
    Except ForwardError (Opened × Nat × Nat) :=
  match taken with
  | some idle =>
      .ok idle
  | none =>
      fresh.map fun conn => (⟨conn, ask.newConn⟩, freshAt, 0)

/-- What `forward_request` hands back, with its age and use. -/
def handedBack
    (job : Job)
    (held : Held)
    (second : Except ForwardError Conn)
    (secondAt : Nat) :
    Option (Opened × Nat × Nat) :=
  match forwardRequest job.mode job.writeTimeout job.request job.body
      (held.first.map fun idle => idle.1.conn) second with
  | (.ok _ (some released), [after]) =>
      held.first.toOption.map fun (opened, createdAt, requestCount) =>
        (⟨{ after with reads := released.reads }, opened.identity⟩,
          createdAt, requestCount + 1)
  | (.ok _ (some released), [_, after]) =>
      some
        (⟨{ after with reads := released.reads }, held.ask.newConn⟩,
          secondAt, 1)
  | _ =>
      none

/-- What is handed back goes to the pool. -/
def putBack
    (pool : ConnPool)
    (limits : KeepAlive)
    (key : String)
    (now : Nat)
    (back : Option (Opened × Nat × Nat))
    (pools : NodePools Opened) :
    NodePools Opened :=
  match back with
  | some (opened, createdAt, requestCount) =>
      pool.release limits key now opened createdAt requestCount pools
  | none =>
      pools

/-- The step function; a request takes one connection and finishes once. -/
def step?
    (pool : ConnPool)
    (system : System) :
    Label → Option System
  | .acquire request worker ask now fresh freshAt =>
      match system.held request with
      | some _ =>
          none
      | none =>
          let (taken, pools) :=
            pool.acquire ask.key now (system.workers worker)
          some
            { system with
              workers := Function.update system.workers worker pools
              held :=
                Function.update system.held request
                  (some ⟨ask, firstConn ask taken fresh freshAt⟩) }
  | .finish request worker job second secondAt now =>
      match system.held request with
      | none =>
          none
      | some held =>
          some
            { system with
              workers :=
                Function.update system.workers worker
                  (putBack pool job.limits held.ask.key now
                    (handedBack job held second secondAt)
                    (system.workers worker))
              held := Function.update system.held request none }
  | .cancel request =>
      match system.held request with
      | none =>
          none
      | some _ =>
          some
            { system with
              held := Function.update system.held request none }
  | .http2 ask network =>
      some
        { system with
          h2 :=
            Function.update system.h2 ask.h2Key
              (some
                ((getOrCreate system.h2 ask).getSender network).2) }

/-- A connection that a pool hands out is what the request asks for. -/
def HandsOutOwn
    (pool : ConnPool)
    (system : System)
    (label : Label)
    (_ : System) :
    Prop :=
  match label with
  | .acquire _ worker ask now _ _ =>
      ∀ opened createdAt requestCount,
        (pool.acquire ask.key now (system.workers worker)).1 =
            some (opened, createdAt, requestCount) →
          opened.identity.Serves ask
  | .http2 ask network =>
      ∀ conn,
        ((getOrCreate system.h2 ask).getSender network).1 = some conn →
          conn.Serves ask
  | .finish .. | .cancel _ =>
      True

/-- The step is one of a request that asks for one of these. -/
def Label.AsksFor (asks : Set Ask) : Label → Prop
  | .acquire _ _ ask _ _ _ =>
      ask ∈ asks ∧ ask.http2 = false
  | .http2 ask _ =>
      ask ∈ asks ∧ ask.http2 = true
  | .finish .. | .cancel _ =>
      True

/-! ## Which requests share connections -/

/-- With TLS, both give the same server name and verification setting. -/
def SameTls (first second : Ask) : Prop :=
  second.node.tls = true →
    first.node.tlsSni = second.node.tlsSni ∧
      first.node.tlsInsecure = second.node.tlsInsecure

/-- If the second is to send PROXY headers, the first names the same client. -/
def SameClient (first second : Ask) : Prop :=
  second.SendsProxy →
    first.SendsProxy ∧
      first.client = second.client ∧
      (namedSource first.client first.proxyDestination).isSome = true

/--
The second request may be given a connection that was opened for the first: over
HTTP/1 they agree if they have one address and TLS or not, over HTTP/2 if they
have one key.
-/
def Agree (pool : ConnPool) (first second : Ask) : Prop :=
  (first.http2 = false →
    second.http2 = false →
    0 < pool.idleTimeout →
    first.node.addr = second.node.addr →
    first.node.tls = second.node.tls →
      SameTls first second ∧ SameClient first second) ∧
  (first.http2 = true →
    second.http2 = true →
    first.h2Key = second.h2Key →
      first.node.addr = second.node.addr ∧
        SameTls first second ∧
        ¬ second.SendsProxy)

/-- The key of the HTTP/1 pool tells addresses and TLS apart. -/
theorem key_eq_iff {first second : Ask} :
    first.key = second.key ↔
      first.node.addr = second.node.addr ∧
        first.node.tls = second.node.tls := by
  constructor
  · intro same
    have texts := congrArg String.toList same
    unfold Ask.key at texts
    cases firstAddr : first.node.addr <;>
      cases secondAddr : second.node.addr <;>
      cases firstTls : first.node.tls <;>
      cases secondTls : second.node.tls <;>
      simp_all [String.toList_append, String.toList_inj]
  · rintro ⟨sameAddr, sameTls⟩
    rw [Ask.key, Ask.key, sameAddr, sameTls]

/-- The key of the HTTP/2 pools tells TLS apart. -/
theorem tls_eq_of_h2Key
    {first second : Ask}
    (same : first.h2Key = second.h2Key) :
    first.node.tls = second.node.tls := by
  have texts := congrArg String.toList same
  unfold Ask.h2Key at texts
  cases firstTls : first.node.tls <;>
    cases secondTls : second.node.tls <;>
    simp_all [String.toList_append]

theorem tls_eq_iff
    {first second : Ask}
    (same : first.node.tls = second.node.tls) :
    first.tls = second.tls ↔ SameTls first second := by
  unfold Ask.tls SameTls
  rw [same]
  cases second.node.tls <;> simp

/-- What the PROXY header of a new connection names. -/
theorem announced_newConn (ask : Ask) (client : SocketAddr) :
    ask.newConn.announced = some client ↔
      ask.SendsProxy ∧
        ask.client = client ∧
        (namedSource ask.client ask.proxyDestination).isSome = true := by
  have named :
      namedSource ask.client ask.proxyDestination = some client ↔
        ask.client = client ∧
          (namedSource ask.client ask.proxyDestination).isSome = true := by
    unfold namedSource
    split <;> simp
  have version :
      ask.newConn.announced =
        if ask.node.sendProxyProtocol = 1 ∨
            ask.node.sendProxyProtocol = 2 then
          namedSource ask.client ask.proxyDestination
        else
          none := by
    simp only [Ask.newConn, writeProxyHeader]
    rcases ask.node.sendProxyProtocol with _ | _ | _ | more
    · rfl
    · rfl
    · rfl
    · simp
  rw [version, Ask.SendsProxy]
  split
  · rename_i sends
    rw [named]
    simp [sends]
  · rename_i silent
    simp [silent]

/-- When a connection opened for one request is what another asks for. -/
theorem newConn_serves_iff
    {first second : Ask}
    (sameAddr : first.node.addr = second.node.addr)
    (sameTls : first.node.tls = second.node.tls) :
    first.newConn.Serves second ↔
      SameTls first second ∧ SameClient first second := by
  constructor
  · rintro ⟨_, isTls, isAnnounced⟩
    refine ⟨(tls_eq_iff sameTls).mp isTls, ?_⟩
    intro sends
    exact (announced_newConn first second.client).mp (isAnnounced sends)
  · rintro ⟨agreeTls, agreeClient⟩
    refine ⟨sameAddr, (tls_eq_iff sameTls).mpr agreeTls, ?_⟩
    intro sends
    exact (announced_newConn first second.client).mpr (agreeClient sends)

/-- The same over HTTP/2, where no connection is opened with a header. -/
theorem new_newConn_serves_iff
    {first second : Ask}
    (sameTls : first.node.tls = second.node.tls) :
    (H2NodePool.new first).newConn.Serves second ↔
      first.node.addr = second.node.addr ∧
        SameTls first second ∧
        ¬ second.SendsProxy := by
  have isTls : (H2NodePool.new first).newConn.tls = first.tls := rfl
  constructor
  · rintro ⟨sameAddr, sameSettings, isAnnounced⟩
    refine ⟨sameAddr, (tls_eq_iff sameTls).mp sameSettings, ?_⟩
    intro sends
    cases isAnnounced sends
  · rintro ⟨sameAddr, agreeTls, silent⟩
    refine ⟨sameAddr, (tls_eq_iff sameTls).mpr agreeTls, ?_⟩
    intro sends
    exact absurd sends silent

/-! ## What the pools hold -/

/-- The connection was opened for an HTTP/1 request with this key. -/
def OpenedFor
    (asks : Set Ask)
    (key : String)
    (opened : Opened) :
    Prop :=
  ∃ ask ∈ asks,
    ask.http2 = false ∧ ask.key = key ∧ opened.identity = ask.newConn

/-- The pool was created for an HTTP/2 request with this key. -/
def CreatedFor
    (asks : Set Ask)
    (key : String)
    (pool : H2NodePool) :
    Prop :=
  ∃ ask ∈ asks,
    ask.http2 = true ∧
      ask.h2Key = key ∧
      pool.newConn = (H2NodePool.new ask).newConn ∧
      ∀ conn ∈ pool.conns, conn = (H2NodePool.new ask).newConn

/-- Every connection was opened for a request with its key. -/
structure Invariant (asks : Set Ask) (system : System) : Prop where
  idle :
    ∀ worker key,
      ∀ idle ∈ system.workers worker key, OpenedFor asks key idle.conn
  held :
    ∀ request held,
      system.held request = some held →
        held.ask ∈ asks ∧
          held.ask.http2 = false ∧
          ∀ idle,
            held.first = .ok idle → OpenedFor asks held.ask.key idle.1
  h2 :
    ∀ key pool, system.h2 key = some pool → CreatedFor asks key pool

theorem invariant_initial (asks : Set Ask) :
    Invariant asks System.initial where
  idle := by
    intro worker key idle member
    cases member
  held := by
    intro request held isHeld
    cases isHeld
  h2 := by
    intro key pool isPool
    cases isPool

variable
  {asks : Set Ask}
  {pool : ConnPool}
  {system next : System}

/-- A connection that the HTTP/1 pool hands out was opened for the key. -/
theorem openedFor_of_acquire
    {worker now createdAt requestCount : Nat}
    {key : String}
    {opened : Opened}
    (invariant : Invariant asks system)
    (taken :
      (pool.acquire key now (system.workers worker)).1 =
        some (opened, createdAt, requestCount)) :
    OpenedFor asks key opened := by
  obtain ⟨idle, member, rfl⟩ := ConnPool.mem_of_acquire taken
  exact invariant.idle worker key idle member

/-- The first connection of a request was opened for its key. -/
theorem openedFor_firstConn
    {ask : Ask}
    {taken : Option (Opened × Nat × Nat)}
    {fresh : Except ForwardError Conn}
    {freshAt : Nat}
    {idle : Opened × Nat × Nat}
    (isAsk : ask ∈ asks ∧ ask.http2 = false)
    (fromPool : ∀ idle, taken = some idle → OpenedFor asks ask.key idle.1)
    (isFirst : firstConn ask taken fresh freshAt = .ok idle) :
    OpenedFor asks ask.key idle.1 := by
  cases taken with
  | some other =>
      obtain rfl := Except.ok.inj isFirst
      exact fromPool other rfl
  | none =>
      cases fresh with
      | error error =>
          cases isFirst
      | ok conn =>
          obtain rfl := Except.ok.inj isFirst
          exact ⟨ask, isAsk.1, isAsk.2, rfl, rfl⟩

/-- What a request hands back was opened for its key. -/
theorem openedFor_handedBack
    {job : Job}
    {held : Held}
    {second : Except ForwardError Conn}
    {secondAt : Nat}
    {back : Opened × Nat × Nat}
    (isAsk : held.ask ∈ asks ∧ held.ask.http2 = false)
    (first :
      ∀ idle, held.first = .ok idle → OpenedFor asks held.ask.key idle.1)
    (isBack : handedBack job held second secondAt = some back) :
    OpenedFor asks held.ask.key back.1 := by
  unfold handedBack at isBack
  split at isBack
  · cases isFirst : held.first with
    | error error =>
        rw [isFirst] at isBack
        cases isBack
    | ok idle =>
        rw [isFirst] at isBack
        obtain rfl := Option.some.inj isBack
        exact first idle isFirst
  · obtain rfl := Option.some.inj isBack
    exact ⟨held.ask, isAsk.1, isAsk.2, rfl, rfl⟩
  · cases isBack

/-- A connection in a queue was there before or is what is handed back. -/
theorem mem_of_mem_putBack
    {limits : KeepAlive}
    {key other : String}
    {now : Nat}
    {back : Option (Opened × Nat × Nat)}
    {pools : NodePools Opened}
    {idle : IdleConn Opened}
    (member : idle ∈ putBack pool limits key now back pools other) :
    idle ∈ pools other ∨
      other = key ∧ ∃ age, back = some (idle.conn, age) := by
  cases back with
  | none =>
      exact .inl member
  | some opened =>
      rcases ConnPool.mem_of_mem_release member with
          before | ⟨sameKey, isNew⟩
      · exact .inl before
      · rw [isNew]
        exact .inr ⟨sameKey, opened.2, rfl⟩

/-- The queues of one worker may change within the invariant. -/
theorem idle_of_update
    {worker other : Nat}
    {pools : NodePools Opened}
    {key : String}
    {idle : IdleConn Opened}
    (invariant : Invariant asks system)
    (changed : ∀ idle ∈ pools key, OpenedFor asks key idle.conn)
    (member : idle ∈ Function.update system.workers worker pools other key) :
    OpenedFor asks key idle.conn := by
  by_cases same : other = worker
  · subst same
    rw [Function.update_self] at member
    exact changed idle member
  · rw [Function.update_of_ne same] at member
    exact invariant.idle other key idle member

/-- What other requests hold is what they held before. -/
theorem held_of_update
    {request other : Nat}
    {change : Option Held}
    {held : Held}
    (invariant : Invariant asks system)
    (changed :
      ∀ held,
        change = some held →
          held.ask ∈ asks ∧
            held.ask.http2 = false ∧
            ∀ idle,
              held.first = .ok idle → OpenedFor asks held.ask.key idle.1)
    (isHeld :
      Function.update system.held request change other = some held) :
    held.ask ∈ asks ∧
      held.ask.http2 = false ∧
      ∀ idle,
        held.first = .ok idle → OpenedFor asks held.ask.key idle.1 := by
  by_cases same : other = request
  · subst same
    rw [Function.update_self] at isHeld
    exact changed held isHeld
  · rw [Function.update_of_ne same] at isHeld
    exact invariant.held other held isHeld

/-- The pool that an HTTP/2 request gets was created for its key. -/
theorem createdFor_getOrCreate
    {ask : Ask}
    (invariant : Invariant asks system)
    (isAsk : ask ∈ asks ∧ ask.http2 = true) :
    CreatedFor asks ask.h2Key (getOrCreate system.h2 ask) := by
  unfold getOrCreate
  cases isPool : system.h2 ask.h2Key with
  | some node =>
      exact invariant.h2 ask.h2Key node isPool
  | none =>
      refine ⟨ask, isAsk.1, isAsk.2, rfl, rfl, ?_⟩
      intro conn member
      cases member

theorem mem_of_firstReady
    {ready : Nat → Bool}
    {index : Nat}
    {conns : List Identity}
    {conn : Identity}
    (isReady : H2NodePool.firstReady ready index conns = some conn) :
    conn ∈ conns := by
  induction conns generalizing index with
  | nil =>
      cases isReady
  | cons first rest inductionHypothesis =>
      rw [H2NodePool.firstReady] at isReady
      split at isReady
      · obtain rfl := Option.some.inj isReady
        exact List.mem_cons_self
      · exact List.mem_cons_of_mem first (inductionHypothesis isReady)

/-- What `get_sender` hands out and leaves. -/
theorem getSender_cases
    (network : H2Network)
    (node : H2NodePool) :
    (∀ conn,
      (node.getSender network).1 = some conn →
        conn ∈ node.conns ∨ conn = node.newConn) ∧
      ((node.getSender network).2 = node ∨
        (node.getSender network).2 =
          { node with conns := node.conns ++ [node.newConn] }) := by
  unfold H2NodePool.getSender
  split
  · rename_i ready isReady
    refine ⟨?_, .inl rfl⟩
    rintro conn ⟨⟩
    exact .inl (mem_of_firstReady isReady)
  · split
    · split
      · refine ⟨?_, .inr rfl⟩
        intro conn isSent
        split at isSent
        · exact .inr (Option.some.inj isSent).symm
        · cases isSent
      · refine ⟨?_, .inl rfl⟩
        rintro conn ⟨⟩
    · split
      · refine ⟨?_, .inl rfl⟩
        intro conn isSent
        exact .inl (List.mem_of_mem_head? isSent)
      · refine ⟨?_, .inl rfl⟩
        rintro conn ⟨⟩

/-- A pool stays one that was created for its key. -/
theorem CreatedFor.getSender
    {key : String}
    {node : H2NodePool}
    (created : CreatedFor asks key node)
    (network : H2Network) :
    CreatedFor asks key (node.getSender network).2 := by
  obtain ⟨ask, isAsk, overHttp2, isKey, isNew, areNew⟩ := created
  refine ⟨ask, isAsk, overHttp2, isKey, ?_⟩
  rcases (getSender_cases network node).2 with same | added
  · rw [same]
    exact ⟨isNew, areNew⟩
  · rw [added]
    refine ⟨isNew, ?_⟩
    intro conn member
    rcases List.mem_append.mp member with before | isAdded
    · exact areNew conn before
    · rw [List.mem_singleton.mp isAdded]
      exact isNew

/-- A step of one of the requests keeps the invariant. -/
theorem Invariant.step
    {label : Label}
    (invariant : Invariant asks system)
    (taken : step? pool system label = some next)
    (asksFor : label.AsksFor asks) :
    Invariant asks next := by
  cases label with
  | acquire request worker ask now fresh freshAt =>
      simp only [step?] at taken
      split at taken
      · cases taken
      · obtain rfl := Option.some.inj taken
        refine ⟨?_, ?_, invariant.h2⟩
        · intro other key idle member
          refine idle_of_update invariant ?_ member
          intro left inQueue
          exact invariant.idle worker key left
            (ConnPool.mem_of_mem_acquire inQueue)
        · intro other held isHeld
          refine held_of_update invariant ?_ isHeld
          rintro _ ⟨⟩
          refine ⟨asksFor.1, asksFor.2, ?_⟩
          intro idle isFirst
          refine openedFor_firstConn asksFor ?_ isFirst
          rintro ⟨opened, createdAt, requestCount⟩ isTaken
          exact openedFor_of_acquire invariant isTaken
  | finish request worker job second secondAt now =>
      simp only [step?] at taken
      split at taken
      · cases taken
      · rename_i held isHeld
        obtain ⟨isAsk, overHttp1, isFirst⟩ :=
          invariant.held request held isHeld
        obtain rfl := Option.some.inj taken
        refine ⟨?_, ?_, invariant.h2⟩
        · intro other key idle member
          refine idle_of_update invariant ?_ member
          intro left inQueue
          rcases mem_of_mem_putBack inQueue with
              before | ⟨rfl, age, isBack⟩
          · exact invariant.idle worker key left before
          · exact openedFor_handedBack ⟨isAsk, overHttp1⟩ isFirst isBack
        · intro other otherHeld isOther
          refine held_of_update invariant ?_ isOther
          rintro _ ⟨⟩
  | cancel request =>
      simp only [step?] at taken
      split at taken
      · cases taken
      · obtain rfl := Option.some.inj taken
        refine ⟨invariant.idle, ?_, invariant.h2⟩
        intro other held isHeld
        refine held_of_update invariant ?_ isHeld
        rintro _ ⟨⟩
  | http2 ask network =>
      obtain rfl := Option.some.inj taken
      refine ⟨invariant.idle, invariant.held, ?_⟩
      intro key node isNode
      by_cases same : key = ask.h2Key
      · subst same
        dsimp only at isNode
        rw [Function.update_self] at isNode
        obtain rfl := Option.some.inj isNode
        exact (createdFor_getOrCreate invariant asksFor).getSender network
      · dsimp only at isNode
        rw [Function.update_of_ne same] at isNode
        exact invariant.h2 key node isNode

/-- From connections opened for agreeing requests each gets its own. -/
theorem Invariant.handsOutOwn
    {label : Label}
    (agree : ∀ first ∈ asks, ∀ second ∈ asks, Agree pool first second)
    (invariant : Invariant asks system)
    (asksFor : label.AsksFor asks) :
    HandsOutOwn pool system label next := by
  cases label with
  | acquire request worker ask now fresh freshAt =>
      intro opened createdAt requestCount taken
      obtain ⟨opener, isOpener, overHttp1, sameKey, isIdentity⟩ :=
        openedFor_of_acquire invariant taken
      obtain ⟨sameAddr, sameTls⟩ := key_eq_iff.mp sameKey
      rw [isIdentity, newConn_serves_iff sameAddr sameTls]
      exact (agree opener isOpener ask asksFor.1).1 overHttp1 asksFor.2
        (ConnPool.idleTimeout_pos_of_acquire taken) sameAddr sameTls
  | http2 ask network =>
      intro conn isSent
      obtain ⟨creator, isCreator, overHttp2, sameKey, isNew, areNew⟩ :=
        createdFor_getOrCreate invariant asksFor
      have isConn : conn = (H2NodePool.new creator).newConn := by
        rcases (getSender_cases network _).1 conn isSent with
            inPool | opened
        · exact areNew conn inPool
        · exact opened.trans isNew
      rw [isConn, new_newConn_serves_iff (tls_eq_of_h2Key sameKey)]
      exact (agree creator isCreator ask asksFor.1).2 overHttp2 asksFor.2
        sameKey
  | finish request worker job second secondAt now =>
      trivial
  | cancel request =>
      trivial

/-! ## Two requests, one after the other -/

/-- A `GET` on the buffered path, with one idle connection for each key. -/
def keepingJob : Job where
  mode := ⟨false, fun _ => true⟩
  writeTimeout := 60
  request := ⟨"GET", "/", "a", [], "192.0.2.1", "http"⟩
  body := []
  limits := ⟨0, 0, 1⟩

/-- An upstream that answers one request and waits. -/
def answeringConn : Conn where
  writes := []
  reads :=
    Event.ofBytes (ascii "HTTP/1.1 204 No Content\r\n\r\n") ++ [.stall]
  sent := []

/-- A reply came back on the one connection used, which is kept. -/
def keptAfterOne : ForwardOutcome × List Conn → Bool
  | (.ok _ (some _), [_]) =>
      true
  | _ =>
      false

/-- Its connection is handed back. -/
theorem handedBack_answeringConn (ask : Ask) (identity : Identity) :
    ∃ conn,
      handedBack keepingJob
          ⟨ask, .ok (⟨answeringConn, identity⟩, 0, 0)⟩
          (.ok answeringConn) 0 =
        some (⟨conn, identity⟩, 0, 1) := by
  have kept :
      keptAfterOne
        (forwardRequest keepingJob.mode keepingJob.writeTimeout
          keepingJob.request keepingJob.body (.ok answeringConn)
          (.ok answeringConn)) = true := by
    decide +kernel
  unfold keptAfterOne at kept
  split at kept
  · rename_i reply released after isOk
    refine ⟨{ after with reads := released.reads }, ?_⟩
    simp only [handedBack, Except.map, isOk]
    rfl
  · cases kept

/-- The first request opens a connection and hands it back to the second. -/
def oneAfterOther (first second : Ask) : List Label :=
  [.acquire 0 0 first 0 (.ok answeringConn) 0,
    .finish 0 0 keepingJob (.ok answeringConn) 0 0,
    .acquire 1 0 second 0 (.ok answeringConn) 0]

/-- The second request is handed the connection of the first. -/
theorem serves_of_oneAfterOther
    {first second : Ask}
    (waits : 0 < pool.idleTimeout)
    (sameKey : first.key = second.key)
    (along :
      Along (step? pool) (HandsOutOwn pool) System.initial
        (oneAfterOther first second)) :
    first.newConn.Serves second := by
  obtain ⟨conn, isBack⟩ := handedBack_answeringConn first first.newConn
  obtain ⟨_, afterFirst⟩ := along _ rfl
  obtain ⟨_, afterBack⟩ := afterFirst _ rfl
  obtain ⟨handsOut, _⟩ := afterBack _ rfl
  apply handsOut ⟨conn, first.newConn⟩ 0 1
  refine @ConnPool.acquire_of_singleton Opened pool 0 second.key _
    ⟨⟨conn, first.newConn⟩, 0, 0, 1⟩ ?_ ?_
  · change
      (putBack pool keepingJob.limits first.key 0
        (handedBack keepingJob
          ⟨first, .ok (⟨answeringConn, first.newConn⟩, 0, 0)⟩
          (.ok answeringConn) 0)
        (Function.update (fun _ => []) first.key []))
        second.key = _
    rw [isBack, ← sameKey]
    simp [putBack, ConnPool.release, ConnPool.idleLimit, keepingJob]
  · simpa [ConnPool.keeps] using waits

/-- A network on which every connection can be opened and is ready. -/
def readyNetwork : H2Network where
  ready := fun _ => true
  opens := true
  readyAgain := true

/-- Over HTTP/2 the second request shares the connection of the first. -/
theorem serves_of_http2
    {first second : Ask}
    (sameKey : first.h2Key = second.h2Key)
    (along :
      Along (step? pool) (HandsOutOwn pool) System.initial
        [.http2 first readyNetwork, .http2 second readyNetwork]) :
    (H2NodePool.new first).newConn.Serves second := by
  obtain ⟨_, afterFirst⟩ := along _ rfl
  obtain ⟨handsOut, _⟩ := afterFirst _ rfl
  apply handsOut
  have isPool :
      getOrCreate
          (Function.update System.initial.h2 first.h2Key
            (some
              ((getOrCreate System.initial.h2 first).getSender
                readyNetwork).2))
          second =
        { H2NodePool.new first with
          conns := [(H2NodePool.new first).newConn] } := by
    rw [getOrCreate, ← sameKey, Function.update_self]
    rfl
  change ((getOrCreate _ second).getSender readyNetwork).1 = _
  rw [isPool]
  rfl

/--
The requests of a deployment are always handed connections of their own
identity, in every run and by both kinds of pools, exactly if every two of them
that can share a connection agree on what it has to be.
-/
theorem handsOutOwn_iff (pool : ConnPool) (asks : Set Ask) :
    (∀ labels,
      (∀ label ∈ labels, Label.AsksFor asks label) →
        Along (step? pool) (HandsOutOwn pool) System.initial labels) ↔
      ∀ first ∈ asks, ∀ second ∈ asks, Agree pool first second := by
  constructor
  · intro always first isFirst second isSecond
    constructor
    · intro firstHttp1 secondHttp1 waits sameAddr sameTls
      apply (newConn_serves_iff sameAddr sameTls).mp
      apply serves_of_oneAfterOther waits
        (key_eq_iff.mpr ⟨sameAddr, sameTls⟩)
      apply always
      simp [oneAfterOther, Label.AsksFor, isFirst, isSecond, firstHttp1,
        secondHttp1]
    · intro firstHttp2 secondHttp2 sameKey
      apply (new_newConn_serves_iff (tls_eq_of_h2Key sameKey)).mp
      apply serves_of_http2 sameKey
      apply always
      simp [Label.AsksFor, isFirst, isSecond, firstHttp2, secondHttp2]
  · intro agree labels asksFor
    exact along_of_allowed
      (fun invariant taken asksNow => invariant.step taken asksNow)
      (fun invariant _ asksNow => invariant.handsOutOwn agree asksNow)
      (invariant_initial asks) asksFor

/-! ## Two locations with one address -/

/-- A node that is reached with TLS. -/
def sampleNode (sni : String) (insecure : Bool) : NodeState where
  addr := .tcp "192.0.2.9:443"
  weight := 1
  healthy := true
  activeConnections := 0
  failCount := 0
  tls := true
  tlsSni := sni
  tlsInsecure := insecure
  upstreamHost := none
  http2 := false
  sendProxyProtocol := 0
  circuitBreaker := none

/-- A request of a client to such a node. -/
def sampleAsk (sni : String) (insecure : Bool) : Ask where
  node := sampleNode sni insecure
  client := ⟨.v4 [192, 0, 2, 1], 40000⟩
  localAddr := some ⟨.v4 [192, 0, 2, 2], 50000⟩
  http2 := false

/--
The second request asks for a verified connection to `b.example` and is handed
the unverified one to `a.example` that the first has opened.
-/
theorem not_handsOutOwn_other_server :
    ¬ Along (step? AlignedPool.samplePool)
      (HandsOutOwn AlignedPool.samplePool) System.initial
      (oneAfterOther (sampleAsk "a.example" true)
        (sampleAsk "b.example" false)) := by
  intro along
  have waits : 0 < AlignedPool.samplePool.idleTimeout := by
    decide
  have sameKey :
      (sampleAsk "a.example" true).key =
        (sampleAsk "b.example" false).key :=
    rfl
  have serves := serves_of_oneAfterOther waits sameKey along
  have sameTls := serves.tls
  revert sameTls
  decide

end Sweety.PoolIdentity
