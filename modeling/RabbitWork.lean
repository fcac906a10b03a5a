import RabbitWork.ConsumerAcks
import RabbitWork.FragmentEffects
import RabbitWork.UnackedEffects
import RabbitWork.ChannelBlindness
import RabbitWork.QueueListener
import RabbitWork.AlarmWindow
import RabbitWork.TimerWindow
import RabbitWork.LtBookkeeping
import RabbitWork.DrainContract
import RabbitWork.SignalHandoff
import RabbitWork.SizeAccounting
import RabbitWork.Lockstep
import RabbitWork.LoopCopies
import RabbitWork.AmqpCodec
import RabbitWork.FieldTable
import RabbitWork.TableRoundTrip
import RabbitWork.MethodCodec
import RabbitWork.FrameCodec
import RabbitWork.FrameRoundTrip
import RabbitWork.FrameInput
import RabbitWork.FrameReceiving
import RabbitWork.FrameStreams
import RabbitWork.FrameQueue
import RabbitWork.MessageArrival
import RabbitWork.FrameOverflow
import RabbitWork.FrameSending
import RabbitWork.Publishing
import RabbitWork.HeartbeatWait
import RabbitWork.PoolBlocks
import RabbitWork.BufferRelease
