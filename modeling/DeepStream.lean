import DeepStream.CustomParser.BoxesMeet
import DeepStream.CustomParser.Ddetr
import DeepStream.Lidar.VoxelizationMeets
import DeepStream.Demux.Inverse
import DeepStream.Demux.Latency
import DeepStream.Infer.Pool
import DeepStream.Infer.ClusterModes
import DeepStream.Infer.Segmentation
import DeepStream.Infer.TensorInput
import DeepStream.InferServer.Histories
import DeepStream.InferServer.Order
import DeepStream.InferServer.Reorder
import DeepStream.InferServer.Lstm
import DeepStream.InferServer.Streams
import DeepStream.InferServer.Scaling
import DeepStream.InferServer.TensorMode
import DeepStream.InferServer.Classes
import DeepStream.InferServer.HostPost
import DeepStream.InferServer.Letterbox
import DeepStream.InferServer.Views
import DeepStream.Kafka.Completion
import DeepStream.MetaUtils.RoundTrip
import DeepStream.MetaUtils.Audio
import DeepStream.MetaUtils.Bounds
import DeepStream.MetaUtils.Sei
import DeepStream.MsgBroker.DoWork
import DeepStream.MsgBroker.Lookups
import DeepStream.MsgConv.Destroyed
import DeepStream.MsgConv.SchemaFormats
import DeepStream.MsgConv.Dsmeta
import DeepStream.MsgConv.MinimalSplit
import DeepStream.MultiUri.Admission
import DeepStream.MultiUri.RestServer
import DeepStream.MultiUri.Roi
import DeepStream.MultiUri.SocketFds
import DeepStream.MultiUri.SourceElements
import DeepStream.MultiUri.SourceHandles
import DeepStream.Mux.ConfigParser
import DeepStream.Mux.Eos
import DeepStream.Mux.Keys
import DeepStream.Mux.NtpOrder
import DeepStream.Mux.Order
import DeepStream.Mux.Pressure
import DeepStream.Mux.RoundRobin
import DeepStream.Mux.Synch
import DeepStream.Mux.Timing
import DeepStream.NvInfer.ClassIds
import DeepStream.NvInfer.Clipping
import DeepStream.NvInfer.Scaling
import DeepStream.NvInfer.Submission
import DeepStream.PostProcess.Attach
import DeepStream.PostProcess.DetectMeets
import DeepStream.PostProcess.Reconfigure
import DeepStream.Preprocess.GroupOrder
import DeepStream.Preprocess.Regions
import DeepStream.Preprocess.Tensor
import DeepStream.Sequence.Identity
import DeepStream.Sequence.Spacing
import DeepStream.Sequence.Layout
import DeepStream.Sequence.Temporal
import DeepStream.Tracker.Balance
import DeepStream.Tracker.MiscData
import DeepStream.Tracker.ObjectIds
import DeepStream.Tracker.Partition
import DeepStream.Tracker.Rejected
import DeepStream.Tracker.Removal
import DeepStream.Tracker.Requests
import DeepStream.Tracker.SubBatches
