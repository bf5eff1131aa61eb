import NixlExamples.Ring.Overrun
import NixlExamples.Ring.Faults
import NixlExamples.Ring.HandshakeView
import NixlExamples.Ring.Layout
import NixlExamples.Ring.Memory
import NixlExamples.Ring.Content
import NixlExamples.Metadata.Exchange
import NixlExamples.Metadata.History
import NixlExamples.TwoProc.Progress
import NixlExamples.Ring.Completion
import NixlExamples.Ring.Fifo
import NixlExamples.Ring.Stall
import NixlExamples.Ring.Robust
import NixlExamples.Ring.Reports
import NixlExamples.TwoProc.Loss
