import MIOpen.Loops
import MIOpen.Launch
import MIOpen.BatchNorm.Basic
import MIOpen.BatchNorm.Grouping
import MIOpen.BatchNorm.Engine
import MIOpen.BatchNorm.Blocked
import MIOpen.BatchNorm.FwdTrain
import MIOpen.BatchNorm.FwdInfer
import MIOpen.BatchNorm.Bwd
import MIOpen.BatchNorm.Gradient
import MIOpen.BatchNorm.Moments
import MIOpen.BatchNorm.Running
import MIOpen.BatchNorm.Heirarch
import MIOpen.BatchNorm.Modes
import MIOpen.BatchNorm.Locality
import MIOpen.BatchNorm.Bounds
import MIOpen.BatchNorm.Kernels
import MIOpen.BatchNorm.Host32
import MIOpen.BatchNorm.Widths
import MIOpen.Where.Basic
import MIOpen.Where.Host
import MIOpen.Where.Kernels
import MIOpen.Where.Broadcast
import MIOpen.Where.Packed
import MIOpen.Adam
import MIOpen.Driver.Stoi
import MIOpen.Driver.Lengths
import MIOpen.Driver.Unfold
import MIOpen.Driver.Strides
import MIOpen.Driver.NLLLoss
