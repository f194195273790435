import ThreadSoup.Census
import ThreadSoup.CommandLine
import ThreadSoup.Config
import ThreadSoup.Counter
import ThreadSoup.Decimal
import ThreadSoup.Dispatch
import ThreadSoup.Effect
import ThreadSoup.Entropy
import ThreadSoup.Fault
import ThreadSoup.Generator
import ThreadSoup.Main
import ThreadSoup.Memory
import ThreadSoup.Op
import ThreadSoup.Picture
import ThreadSoup.Proofs.Ages
import ThreadSoup.Proofs.Agreement
import ThreadSoup.Proofs.Conservation
import ThreadSoup.Proofs.CopyPattern
import ThreadSoup.Proofs.CopyTrace
import ThreadSoup.Proofs.Cycle
import ThreadSoup.Proofs.DirtyFlag
import ThreadSoup.Proofs.Dispatch
import ThreadSoup.Proofs.EffectHistory
import ThreadSoup.Proofs.EffectStream
import ThreadSoup.Proofs.Exhaustion
import ThreadSoup.Proofs.Fault
import ThreadSoup.Proofs.Fixtures
import ThreadSoup.Proofs.FrameRate
import ThreadSoup.Proofs.Frames
import ThreadSoup.Proofs.Invariant
import ThreadSoup.Proofs.Memory
import ThreadSoup.Proofs.Mirror
import ThreadSoup.Proofs.MirrorCycle
import ThreadSoup.Proofs.Phase
import ThreadSoup.Proofs.PlainLines
import ThreadSoup.Proofs.PlainMirror
import ThreadSoup.Proofs.PlainValues
import ThreadSoup.Proofs.Pool
import ThreadSoup.Proofs.Presentation
import ThreadSoup.Proofs.Provenance
import ThreadSoup.Proofs.QueueMirror
import ThreadSoup.Proofs.Report
import ThreadSoup.Proofs.Ring
import ThreadSoup.Proofs.RingLaws
import ThreadSoup.Proofs.Rotation
import ThreadSoup.Proofs.Run
import ThreadSoup.Proofs.Safety
import ThreadSoup.Proofs.Scene
import ThreadSoup.Proofs.Schedule
import ThreadSoup.Proofs.Seniority
import ThreadSoup.Proofs.SettingsText
import ThreadSoup.Proofs.Setup
import ThreadSoup.Proofs.Source
import ThreadSoup.Proofs.Time
import ThreadSoup.Proofs.Trajectory
import ThreadSoup.Proofs.Visits
import ThreadSoup.Random
import ThreadSoup.Report
import ThreadSoup.Ring
import ThreadSoup.Settings
import ThreadSoup.Simulator.Basic
import ThreadSoup.Simulator.Cycle
import ThreadSoup.Simulator.Noise
import ThreadSoup.Simulator.Setup
import ThreadSoup.Simulator.Time
import ThreadSoup.Thread
import ThreadSoup.Toml.Date
import ThreadSoup.Toml.Document
import ThreadSoup.Toml.Number
import ThreadSoup.Toml.Quoted
import ThreadSoup.Toml.Scan
import ThreadSoup.Toml.Value
import ThreadSoup.Proofs.Footprint
import ThreadSoup.Proofs.Independence
import ThreadSoup.Proofs.SpawnLifetime
import ThreadSoup.Proofs.NoiseWeights
import ThreadSoup.Proofs.GridText
import ThreadSoup.Proofs.DrawingOrder
