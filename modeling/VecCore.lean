import VecCore.Foundation.Loop
import VecCore.Foundation.Coverage
import VecCore.Foundation.Lanes
import VecCore.Foundation.Store
import VecCore.Foundation.Lockstep
import VecCore.Foundation.FirstHit
import VecCore.Foundation.Grid
import VecCore.Foundation.Prefix
import VecCore.Foundation.PairSum
import VecCore.Foundation.NaN
import VecCore.Foundation.Numerals
import VecCore.Foundation.CInt
import VecCore.Foundation.Intrinsics
import VecCore.Foundation.FloatFormat
import VecCore.Foundation.RoundNat
import VecCore.Foundation.Region
import VecCore.Foundation.Trace
import VecCore.Foundation.MaskedLoop
import VecCore.Foundation.TileMap
import VecCore.Foundation.Interleaving
import VecCore.Backend.Implementation
import VecCore.Backend.Scalar
import VecCore.Backend.VecMath
import VecCore.Backend.MinMax
import VecCore.Backend.Limits
import VecCore.Backend.Reduction
import VecCore.Backend.ReduceAdd
import VecCore.Backend.MinArray
import VecCore.Backend.SIMD
import VecCore.Backend.SIMDIndex
import VecCore.Backend.ScatterGather
import VecCore.Backend.ScatterLoops
import VecCore.Backend.SIMDSizes
import VecCore.Backend.Element
import VecCore.Backend.Conformance
import VecCore.Backend.ScalarWrapper
import VecCore.Backend.MaskedScalar
import VecCore.Backend.Convert
import VecCore.Bench.EscapeTime
import VecCore.Bench.Mandelbrot
import VecCore.Bench.MandelbrotAVX
import VecCore.Bench.MandelbrotCounter
import VecCore.Bench.Png
import VecCore.Bench.MandelbrotColors
import VecCore.Bench.Julia
import VecCore.Bench.NewtonStep
import VecCore.Bench.Newton
import VecCore.Bench.NewtonAgreement
import VecCore.Bench.NewtonComplex
import VecCore.Bench.NewtonConverged
import VecCore.Bench.Quadratic
import VecCore.Bench.QuadraticAVX
import VecCore.Bench.QuadraticRoots
import VecCore.Bench.QuadraticTiles
import VecCore.Bench.NBody
import VecCore.Bench.NBodyMomentum
import VecCore.Kernel.Syntax
import VecCore.Kernel.Semantics
import VecCore.Kernel.Simulation
import VecCore.Kernel.Tiles
import VecCore.Kernel.Loops
import VecCore.Kernel.LoopTiles
import VecCore.Kernel.Unguarded
import VecCore.Kernel.Threads
import VecCore.Bench.EscapeKernel
import VecCore.Bench.EscapeImage
import VecCore.Bench.EscapeRadius
import VecCore.Bench.NewtonSymmetry
import VecCore.Bench.NewtonRate
import VecCore.Bench.Picture
import VecCore.Bench.QuadraticRuns
import VecCore.Bench.NBodyAVX
import VecCore.Bench.NBodySymmetry
import VecCore.Test.Hello
