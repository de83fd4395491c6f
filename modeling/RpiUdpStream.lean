import RpiUdpStream.LabelledRun
import RpiUdpStream.ByteBuffer
import RpiUdpStream.EventFlags
import RpiUdpStream.SignedWrap
import RpiUdpStream.Mailbox
import RpiUdpStream.OneSlotBuffer
import RpiUdpStream.UdpSetup
import RpiUdpStream.AppTimeout
import RpiUdpStream.TimeoutRange
import RpiUdpStream.TimerRace
import RpiUdpStream.Server
import RpiUdpStream.ServerSteps
import RpiUdpStream.ServerTime
import RpiUdpStream.SessionOverlap
import RpiUdpStream.ThreadReaping
import RpiUdpStream.SessionExit
import RpiUdpStream.StreamAddress
import RpiUdpStream.CommandRecognition
import RpiUdpStream.KeepAlive
import RpiUdpStream.FrameDelivery
import RpiUdpStream.Shutdown
import RpiUdpStream.Target32Server
import RpiUdpStream.RacyServer
import RpiUdpStream.UninterruptedTimer
import RpiUdpStream.RacyKeepAlive
import RpiUdpStream.ComponentEvents
import RpiUdpStream.ErrorDelivery
import RpiUdpStream.OmxCalls
import RpiUdpStream.OmxSession
import RpiUdpStream.SyncSession
import RpiUdpStream.SessionRefinement
import RpiUdpStream.Handshake
import RpiUdpStream.SessionLifecycle
import RpiUdpStream.FlagLifetime
import RpiUdpStream.ComponentRules
import RpiUdpStream.SessionProgress
import RpiUdpStream.WholeProgram
import RpiUdpStream.WholeSessions
import RpiUdpStream.StreamingDevice
import RpiUdpStream.CleanShutdown
import RpiUdpStream.QuitCompletion
import RpiUdpStream.EventMailbox
import RpiUdpStream.FramePayloads
