import MoonlightWii.App.CommentedLines
import MoonlightWii.App.ConfigReferences
import MoonlightWii.App.CreateClient
import MoonlightWii.App.DoStream
import MoonlightWii.App.GetLine
import MoonlightWii.App.HomeUnwinds
import MoonlightWii.App.MainMenu
import MoonlightWii.App.MakeDirectories
import MoonlightWii.App.Overscan
import MoonlightWii.App.Screens
import MoonlightWii.App.ViewOnly
import MoonlightWii.Fec.ByteField
import MoonlightWii.Fec.InvertMat
import MoonlightWii.Fec.ShardColumns
import MoonlightWii.Fec.ShardRecovery
import MoonlightWii.Foundation.ErasureCode
import MoonlightWii.Foundation.GaussJordan
import MoonlightWii.Foundation.SerialNumber
import MoonlightWii.Gamestream.ApplistDocument
import MoonlightWii.Gamestream.CompleteRequests
import MoonlightWii.Gamestream.ConfirmedCalls
import MoonlightWii.Gamestream.DefinedBytes
import MoonlightWii.Gamestream.ModelistDocument
import MoonlightWii.Gamestream.ModelistHeap
import MoonlightWii.Gamestream.Numbers
import MoonlightWii.Gamestream.ResponseBody
import MoonlightWii.Gamestream.SearchedText
import MoonlightWii.Gamestream.SendLoop
import MoonlightWii.Gamestream.StartApp
import MoonlightWii.Gamestream.StatusFields
import MoonlightWii.Limelight.AudioOrder
import MoonlightWii.Limelight.AudioQueue
import MoonlightWii.Limelight.AudioRecovery
import MoonlightWii.Limelight.Connection
import MoonlightWii.Limelight.DecodableUnits
import MoonlightWii.Limelight.InputDelivery
import MoonlightWii.Limelight.InputStream
import MoonlightWii.Limelight.LinkedBlockingQueue
import MoonlightWii.Limelight.LossPrediction
import MoonlightWii.Limelight.VideoDepacketizer
import MoonlightWii.Limelight.VideoFrames
import MoonlightWii.Limelight.VideoRecovery
import MoonlightWii.Wii.AppendToRing
import MoonlightWii.Wii.AudioRenderer
import MoonlightWii.Wii.AudioStream
import MoonlightWii.Wii.DecodeRun
import MoonlightWii.Wii.DrawScaling
import MoonlightWii.Wii.Flip
import MoonlightWii.Wii.FontBitmap
import MoonlightWii.Wii.FrameCopy
import MoonlightWii.Wii.FramePipeline
import MoonlightWii.Wii.FrameReads
import MoonlightWii.Wii.FrameStores
import MoonlightWii.Wii.GeckoWrite
import MoonlightWii.Wii.HomePresses
import MoonlightWii.Wii.InputString
import MoonlightWii.Wii.Mem2Manager
import MoonlightWii.Wii.MenuPasses
import MoonlightWii.Wii.SocketPoll
import MoonlightWii.Wii.StreamSession
