import I40Aas.Lib.Execution

/-!
The AMQP client of the Go components. Its calls run at the same time as the goroutines that
wait for a connection to be lost, and all of them replace the connection and the channel of the
client. What the broker answers is given with each step; an operation on something that is
closed always fails.
-/

namespace I40Aas.GoAmqp

open I40Aas.Lib

structure Channel where
  conn : ℕ
  number : ℕ
  deriving DecidableEq

/-- Where a call of `Connect` returns to. -/
inductive Return
  | caller
  | listen
  | publish (routingKey : String) (payload : List UInt8)
  deriving DecidableEq

/-- The operations of `Listen` on the channel. -/
inductive QueueOp
  | queueDeclare
  | queueBind
  | consume
  deriving DecidableEq

/-- Where a call or a goroutine is. -/
inductive Pc
  | dial (ret : Return)
  | openChannel (conn : ℕ) (ret : Return)
  | exchangeDeclare (ret : Return)
  | notifyClose
  | waitForClose (conn : ℕ)
  | listen
  | queue (op : QueueOp)
  | publish (routingKey : String) (payload : List UInt8)
  | channelPublish (routingKey : String) (payload : List UInt8)
  | closeChannel
  | closeConnection
  | done
  deriving DecidableEq

/-- A call or a goroutine, and how many calls of `Close` had succeeded when it began. -/
structure Task where
  pc : Pc
  closes : ℕ
  deriving DecidableEq

/-- An open connection, and how many calls of `Close` had succeeded when the call began that
has opened it. -/
structure Connection where
  number : ℕ
  closes : ℕ
  deriving DecidableEq

structure Publishing where
  task : ℕ
  channel : Channel
  routingKey : String
  payload : List UInt8
  deriving DecidableEq

/-- Connections and channels are numbered as they are opened. -/
structure AMQPClient where
  conn : Option ℕ
  channel : Option Channel
  reconnect : Bool
  dialled : ℕ
  opened : ℕ
  openConnections : List Connection
  openChannels : List ℕ
  /-- The connections that `Close` has closed. -/
  closedByClient : List ℕ
  tasks : List Task
  published : List Publishing
  /-- How many calls of `Close` have returned without an error. -/
  closes : ℕ
  deriving DecidableEq

def newAMQPClient : AMQPClient where
  conn := none
  channel := none
  reconnect := true
  dialled := 0
  opened := 0
  openConnections := []
  openChannels := []
  closedByClient := []
  tasks := []
  published := []
  closes := 0

inductive Call
  | connect
  | listen
  | publish (routingKey : String) (payload : List UInt8)
  | close
  deriving DecidableEq

inductive Label
  | call (call : Call)
  /-- A task goes on. What it asks of the broker succeeds or fails. -/
  | run (task : ℕ) (ok : Bool)
  | loseConnection (conn : ℕ)
  /-- An error on a channel closes it. -/
  | channelError (number : ℕ)
  deriving DecidableEq

def Call.pc : Call → Pc
  | connect => .dial .caller
  | listen => .listen
  | publish routingKey payload => .publish routingKey payload
  | close => .closeChannel

def Return.pc : Return → Pc
  | caller => .done
  | listen => .queue .queueDeclare
  | publish routingKey payload => .channelPublish routingKey payload

def QueueOp.next : QueueOp → Pc
  | queueDeclare => .queue .queueBind
  | queueBind => .queue .consume
  | consume => .done

namespace AMQPClient

def isOpen (c : AMQPClient) (conn : ℕ) : Bool :=
  c.openConnections.any fun connection => connection.number = conn

def channelOpen (c : AMQPClient) (channel : Channel) : Bool :=
  c.isOpen channel.conn && decide (channel.number ∈ c.openChannels)

/-- The connection of the client, if it has one, is open. -/
def connOpen (c : AMQPClient) : Bool :=
  c.conn.any c.isOpen

def setPc (c : AMQPClient) (i : ℕ) (pc : Pc) : AMQPClient :=
  { c with tasks := c.tasks.modify i fun t => { t with pc := pc } }

/-- A call begins, or a goroutine. -/
def spawn (c : AMQPClient) (t : Task) : AMQPClient :=
  { c with tasks := c.tasks ++ [t] }

def closeConn (c : AMQPClient) (conn : ℕ) : AMQPClient :=
  { c with openConnections := c.openConnections.filter fun connection =>
      connection.number ≠ conn }

/-- `amqp.Dial` has succeeded. -/
def dialOk (c : AMQPClient) (t : Task) : AMQPClient :=
  { c with
    conn := some c.dialled
    dialled := c.dialled + 1
    openConnections := c.openConnections ++ [⟨c.dialled, t.closes⟩] }

/-- `conn.Channel` has succeeded. -/
def channelOk (c : AMQPClient) (conn : ℕ) : AMQPClient :=
  { c with
    channel := some ⟨conn, c.opened⟩
    opened := c.opened + 1
    openChannels := c.openChannels ++ [c.opened] }

/-- `channel.Publish` has succeeded. -/
def publishOk (c : AMQPClient) (publishing : Publishing) : AMQPClient :=
  { c with published := c.published ++ [publishing] }

/-- How `Listen` and `Publish` begin. The connection is not there only if the channel is not. -/
def check (c : AMQPClient) (i : ℕ) (ret : Return) : Option AMQPClient :=
  match c.channel, c.conn with
  | none, _ => some (c.setPc i (.dial ret))
  | some _, none => none
  | some _, some conn => some (if c.isOpen conn then c.setPc i ret.pc else c)

/-- The first half of `Close`. -/
def closeChannel (c : AMQPClient) (i : ℕ) (ok : Bool) : AMQPClient :=
  match c.channel with
  | none => { c with reconnect := false }.setPc i .closeConnection
  | some channel =>
      { c with
        reconnect := false
        openChannels := c.openChannels.filter fun number => number ≠ channel.number }.setPc i
        (if ok && c.channelOpen channel then .closeConnection else .done)

/-- The second half of `Close`. -/
def closeConnection (c : AMQPClient) (i : ℕ) (ok : Bool) : AMQPClient :=
  match c.conn with
  | none => { c with closes := c.closes + 1 }.setPc i .done
  | some conn =>
      if c.isOpen conn then
        { c.closeConn conn with
          closedByClient := c.closedByClient ++ [conn]
          closes := if ok then c.closes + 1 else c.closes }.setPc i .done
      else c.setPc i .done

/-- A task goes on. It cannot while it waits. -/
def runTask (c : AMQPClient) (i : ℕ) (t : Task) (ok : Bool) : Option AMQPClient :=
  match t.pc with
  | .dial ret =>
      some (if ok then (c.dialOk t).setPc i (.openChannel c.dialled ret) else c)
  | .openChannel conn ret =>
      some (if ok && c.isOpen conn then (c.channelOk conn).setPc i (.exchangeDeclare ret)
        else c.setPc i (.dial ret))
  | .exchangeDeclare ret =>
      -- whether it was declared is not looked at
      some ((c.setPc i ret.pc).spawn ⟨.notifyClose, t.closes⟩)
  | .notifyClose =>
      c.conn.map fun conn => c.setPc i (if c.isOpen conn then .waitForClose conn else .done)
  | .waitForClose conn =>
      if c.isOpen conn then none
      else some (c.setPc i (if conn ∈ c.closedByClient then .done else .dial .caller))
  | .listen => c.check i .listen
  | .queue op =>
      c.channel.map fun channel =>
        c.setPc i (if ok && c.channelOpen channel then op.next else .listen)
  | .publish routingKey payload => c.check i (.publish routingKey payload)
  | .channelPublish routingKey payload =>
      c.channel.map fun channel =>
        if ok && c.channelOpen channel then
          (c.publishOk ⟨i, channel, routingKey, payload⟩).setPc i .done
        else c.setPc i (.publish routingKey payload)
  | .closeChannel => some (c.closeChannel i ok)
  | .closeConnection => some (c.closeConnection i ok)
  | .done => none

def step (c : AMQPClient) : Label → Option AMQPClient
  | .call call => some (c.spawn ⟨call.pc, c.closes⟩)
  | .run i ok => c.tasks[i]?.bind fun t => c.runTask i t ok
  | .loseConnection conn => if c.isOpen conn then some (c.closeConn conn) else none
  | .channelError number =>
      some { c with openChannels := c.openChannels.filter fun number' => number' ≠ number }

end AMQPClient

end I40Aas.GoAmqp
