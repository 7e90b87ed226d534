import MediaKit.Rtsp.SessionSafety
import MediaKit.Rtsp.Framing
import MediaKit.Core.Join
import MediaKit.Http.Access
import MediaKit.DigestBinding
import MediaKit.Gb28181.Isolation
import MediaKit.Gb28181.Reorder
import MediaKit.Ps.Packetisation
import MediaKit.Ps.Nalus
import MediaKit.Ps.StartCodes
import MediaKit.Ts.RoundTrip
import MediaKit.Mp4.Preservation
import MediaKit.Mp4.Timeline
import MediaKit.Fmp4.Preservation
import MediaKit.Rtmp.FlvIngest
import MediaKit.Gb28181.PacketLoss
import MediaKit.Rtsp.PacketLoss
import MediaKit.Rtmp.ChunkStreams
import MediaKit.Rtmp.Connection
import MediaKit.Core.EdgePull
import MediaKit.Server.NoReader
import MediaKit.Server.Succession
import MediaKit.Server.Names
import MediaKit.Core.RtpSender
import MediaKit.Server.Pusher
import MediaKit.Gb28181.Devices
import MediaKit.Hls.Recorder
import MediaKit.Rtmp.ChunkSize
import MediaKit.Rtmp.Forwarding
import MediaKit.Core.RtpStream
import MediaKit.Core.Samples
import MediaKit.Ts.Keyframes
import MediaKit.Flv.Pull
import MediaKit.Fmp4.Live
import MediaKit.Rtsp.Ingest
import MediaKit.Ts.Contents
import MediaKit.Http.WsFrame
