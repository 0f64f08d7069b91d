import CPYuZe.Yolanda.Common

/-!
# Channels

`struct channel` ties a descriptor to the events it is watched for, to two callbacks and to
the object the callbacks work on.  That object is a `void *`: an event loop, a server or a
connection, depending on who created the channel, and the three are told apart here because
`channel_write_event_enable` and `channel_write_event_disable` take it for an event loop
whatever it is.  Both change the flags of the channel and then send the loop they believe in
an update request, so each of them yields the channel and that request.
-/

namespace Yolanda

/-- The object `channel->data` points to. -/
inductive ChannelData
  | eventLoop (loop : ℕ)
  | tcpServer (server : ℕ)
  | tcpConnection (connection : ℕ)
  deriving DecidableEq, Repr

/-- The functions the library installs as callbacks of a channel. -/
inductive Callback
  | handleWakeup
  | handleConnectionEstablished
  | handleRead
  | handleWrite
  deriving DecidableEq, Repr

structure Channel where
  fd : ℤ
  events : BitVec 32
  eventReadCallback : Option Callback
  eventWriteCallback : Option Callback
  data : ChannelData
  deriving DecidableEq, Repr

def eventRead : BitVec 32 := 0x02#32
def eventWrite : BitVec 32 := 0x04#32

def channelNew (fd : ℤ) (events : BitVec 32) (eventReadCallback : Option Callback)
    (eventWriteCallback : Option Callback) (data : ChannelData) : Channel where
  fd := fd
  events := events
  eventReadCallback := eventReadCallback
  eventWriteCallback := eventWriteCallback
  data := data

/-- A call of `event_loop_update_channel_event`: what it takes for its event loop, and the
channel to be updated. -/
structure UpdateRequest where
  eventLoop : ChannelData
  fd : ℤ
  channel : Channel
  deriving DecidableEq, Repr

def channelWriteEventIsEnabled (channel : Channel) : Bool :=
  channel.events &&& eventWrite != 0#32

def channelWriteEventEnable (channel : Channel) : Channel × UpdateRequest :=
  let channel' := { channel with events := channel.events ||| eventWrite }
  (channel', ⟨channel.data, channel.fd, channel'⟩)

def channelWriteEventDisable (channel : Channel) : Channel × UpdateRequest :=
  let channel' := { channel with events := channel.events &&& ~~~eventWrite }
  (channel', ⟨channel.data, channel.fd, channel'⟩)

@[simp] lemma isEnabled_enable (channel : Channel) :
    channelWriteEventIsEnabled (channelWriteEventEnable channel).1 = true := by
  have h : (channel.events ||| eventWrite) &&& eventWrite = eventWrite := by
    ext i
    simp only [BitVec.getElem_and, BitVec.getElem_or]
    cases channel.events[i] <;> cases eventWrite[i] <;> rfl
  unfold channelWriteEventIsEnabled channelWriteEventEnable
  rw [h]
  decide

@[simp] lemma isEnabled_disable (channel : Channel) :
    channelWriteEventIsEnabled (channelWriteEventDisable channel).1 = false := by
  have h : (channel.events &&& ~~~eventWrite) &&& eventWrite = 0#32 := by
    ext i
    simp only [BitVec.getElem_and, BitVec.getElem_not, BitVec.getElem_zero]
    cases channel.events[i] <;> cases eventWrite[i] <;> rfl
  unfold channelWriteEventIsEnabled channelWriteEventDisable
  rw [h]
  decide

end Yolanda
