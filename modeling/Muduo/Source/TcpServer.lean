import Muduo.Source.ReactorCluster

/-!
# TcpServer (muduo/net/tcp_server.cc)

The server's own data beside its loops: `next_conn_id_`, the names it gives and
`connections_` with its entries. `World.table` counts these entries by connection; here
they are found by name, as the code finds them. What `~TcpServer` does to the map is not
followed.
-/
namespace Muduo.Source
open Muduo.Support

/-- The connection that an action constructs. -/
def Action.constructs {answer : Type} : Action answer → Option ConnId
  | .loop (.loopCall (.newConnection c)) | .connectElsewhere c => some c
  | _ => none

namespace World

variable {σ answer : Type}

/-- The connection whose `closeCallback_` an action calls. -/
def closeCalls (w : World σ) (action : Action answer) : Option ConnId :=
  match w.running action with
  | some (.handleCloseRest c) => some c
  | _ => none

/-- The connection that `removeConnectionInLoop` is run for: from the queue, or at once in
`closeCallback_` on the server's loop. -/
def removes (settings : Settings) (w : World σ) (action : Action answer) : Option ConnId :=
  match action with
  | .removeElsewhere c => some c
  | action => if settings.serverHere then w.closeCalls action else none

end World

/-- A connection of the server: its loop, and its channel there. -/
abbrev ServerConn := LoopId × ConnId

structure TcpServer (σ : Type) where
  cluster : Cluster σ
  /-- `name_` -/
  name : String
  nextConnId : Int
  /-- `std::unordered_map<std::string, TcpConnectionPtr>` -/
  connections : Finmap fun _ : String => ServerConn
  /-- `name_` of each connection -/
  connName : ServerConn → String
  /-- connections in the order of `newConnection` -/
  accepted : List ServerConn
  /-- connections in the order of `removeConnectionInLoop` -/
  removed : List ServerConn

namespace TcpServer

variable {σ : Type}

/-- `INT_MAX` -/
def kMaxInt : Int := 2 ^ 31 - 1

def start (deployment : Deployment) (name : String) (poller : σ) : TcpServer σ where
  cluster := .start deployment poller
  name := name
  nextConnId := 1
  connections := ∅
  connName _ := ""
  accepted := []
  removed := []

/-- `newConnection` up to the entry in `connections_`; an increment beyond `INT_MAX` is
undefined. -/
def newConnection (server : TcpServer σ) (conn : ServerConn) : Except Fault (TcpServer σ) :=
  if server.nextConnId = kMaxInt then .error .outOfRange
  else
    let nextConnId := server.nextConnId + 1
    let connName := server.name ++ toString nextConnId
    .ok { server with
      nextConnId := nextConnId
      connections := server.connections.insert connName conn
      connName := Function.update server.connName conn connName
      accepted := server.accepted ++ [conn] }

/-- `connections_.erase(name)`, with the number of entries that it erases. -/
def erase (connections : Finmap fun _ : String => ServerConn) (name : String) :
    Nat × Finmap fun _ : String => ServerConn :=
  (if connections.lookup name = none then 0 else 1, connections.erase name)

/-- `removeConnectionInLoop` up to its assertion. -/
def removeConnectionInLoop (server : TcpServer σ) (conn : ServerConn) :
    Except Fault (TcpServer σ) :=
  let (n, connections) := erase server.connections (server.connName conn)
  if n ≠ 1 then .error (.assertFailed .removeConnection)
  else .ok { server with connections := connections, removed := server.removed ++ [conn] }

def constructs {answer : Type} : ClusterAction answer → Option ServerConn
  | .on loop (.run action) => action.constructs.map (loop, ·)
  | _ => none

def closeCalls {answer : Type} (cluster : Cluster σ) : ClusterAction answer → Option ServerConn
  | .on loop (.run action) => ((cluster.loops loop).world.closeCalls action).map (loop, ·)
  | _ => none

def removes {answer : Type} (deployment : Deployment) (cluster : Cluster σ) :
    ClusterAction answer → Option ServerConn
  | .on loop (.run action) =>
    ((cluster.loops loop).world.removes (deployment.settings loop) action).map (loop, ·)
  | _ => none

/-- A step of the loops, with what the server does to its own data in it. -/
def step (deployment : Deployment) (impl : Polling σ) (server : TcpServer σ)
    (action : ClusterAction impl.Answer) : Except Fault (TcpServer σ) :=
  match server.cluster.step deployment impl action with
  | .error e => .error e
  | .ok cluster =>
    match constructs action, removes deployment server.cluster action with
    | some conn, _ => { server with cluster := cluster }.newConnection conn
    | none, some conn => { server with cluster := cluster }.removeConnectionInLoop conn
    | none, none => .ok { server with cluster := cluster }

end TcpServer

end Muduo.Source
